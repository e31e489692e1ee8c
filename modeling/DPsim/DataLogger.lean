import DPsim.Definitions
import DPsim.OrderedMap
import DPsim.Separated
import Mathlib.Data.Char
import Mathlib.Data.Fintype.EquivFin
import Mathlib.Data.List.Lex

/-! `DataLogger`: the file that `log` writes, with one line of column names and one line for each
call. `A` are the pointers to scalar attributes. -/
namespace DPsim

abbrev Text := List Char

/-- What a number is printed as: no comma, and no line break. -/
def Formatted := { text : Text // ',' ∉ text ∧ '\n' ∉ text }

def setw (width : Nat) (text : Text) : Text := List.replicate (width - text.length) ' ' ++ text

def to_string (n : Nat) : Text := Nat.toDigits 10 n

/-- What a `CPS::AttributeBase` is cast to; a complex attribute consists of two scalar ones, and a
matrix has the shape it has at the time of the call. -/
inductive Attribute (A : Type) where
  | int (attr : A)
  | real (attr : A)
  | complex (real imag : A)
  | realMatrix (rows cols : Nat) (coeff : Nat → Nat → A)
  | complexMatrix (rows cols : Nat) (coeff : Nat → Nat → A × A)
  | other

/-- `mLogFile` is what the file holds, or `none` where it is not open. -/
structure DataLogger (A : Type) where
  mLogFile : Option Text
  mAttributes : OrderedMap Text A

namespace DataLogger

variable {A : Type}

def make (opened : Bool) : DataLogger A := ⟨if opened then some [] else none, .empty⟩

section Attributes

def addScalar (name : Text) (attr : A) (lg : DataLogger A) : DataLogger A :=
  { lg with mAttributes := lg.mAttributes.insert name attr }

def addComplex (name : Text) (attr : A × A) (lg : DataLogger A) : DataLogger A :=
  (lg.addScalar (name ++ ['.','r','e','a','l']) attr.1).addScalar (name ++ ['.','i','m','a','g']) attr.2

/-- The two overloads for matrices differ in what they call for a coefficient. -/
def addMatrix {T : Type} (add : Text → T → DataLogger A → DataLogger A) (name : Text) (rows cols : Nat)
    (coeff : Nat → Nat → T) (lg : DataLogger A) : DataLogger A :=
  if rows = 1 ∧ cols = 1 then add name (coeff 0 0) lg
  else if cols = 1 then
    (List.range rows).foldl (fun lg k => add (name ++ ['('] ++ to_string k ++ [')']) (coeff k 0) lg) lg
  else
    (List.range rows).foldl (fun lg k => (List.range cols).foldl (fun lg l =>
      add (name ++ ['('] ++ to_string k ++ [',',' '] ++ to_string l ++ [')']) (coeff k l) lg) lg) lg

def addAttribute (name : Text) (attr : Attribute A) (lg : DataLogger A) : Except Fault (DataLogger A) :=
  match attr with
  | .int attr => .ok (lg.addScalar name attr)
  | .real attr => .ok (lg.addScalar name attr)
  | .complex real imag => .ok (lg.addComplex name (real,imag))
  | .realMatrix rows cols coeff => .ok (lg.addMatrix addScalar name rows cols coeff)
  | .complexMatrix rows cols coeff => .ok (lg.addMatrix addComplex name rows cols coeff)
  | .other => .error (.exception "InvalidAttributeException")

end Attributes

def column (text : Text) : Text := ' ' :: setw 13 text

def headerLine (m : OrderedMap Text A) : Text :=
  setw 14 ['t','i','m','e'] ++ m.entries.flatMap fun it => [',',' '] ++ setw 13 it.1

def rowLine (m : OrderedMap Text A) (time : Formatted) (values : A → Formatted) : Text :=
  setw 14 time.1 ++ m.entries.flatMap fun it => [',',' '] ++ setw 13 (values it.2).1

/-- `tellp` is zero only in an empty file that is open. -/
def log (time : Formatted) (values : A → Formatted) (lg : DataLogger A) : DataLogger A :=
  let header := if lg.mLogFile = some [] then headerLine lg.mAttributes ++ ['\n'] else []
  { lg with mLogFile := lg.mLogFile.map fun text =>
      text ++ header ++ rowLine lg.mAttributes time values ++ ['\n'] }

inductive Call (A : Type) where
  | addAttribute (name : Text) (attr : Attribute A)
  | log (time : Formatted) (values : A → Formatted)

/-- A call that throws leaves the logger as it was. -/
def apply (lg : DataLogger A) : Call A → DataLogger A
  | .addAttribute name attr =>
    match lg.addAttribute name attr with
    | .ok lg => lg
    | .error _ => lg
  | .log time values => lg.log time values

def run (lg : DataLogger A) (calls : List (Call A)) : DataLogger A := calls.foldl apply lg

def scalarNames (name : Text) (attr : A) : List (Text × A) := [(name,attr)]

def complexNames (name : Text) (attr : A × A) : List (Text × A) :=
  [(name ++ ['.','r','e','a','l'],attr.1),(name ++ ['.','i','m','a','g'],attr.2)]

def matrixNames {T : Type} (names : Text → T → List (Text × A)) (name : Text) (rows cols : Nat)
    (coeff : Nat → Nat → T) : List (Text × A) :=
  if rows = 1 ∧ cols = 1 then names name (coeff 0 0)
  else if cols = 1 then
    (List.range rows).flatMap fun k => names (name ++ ['('] ++ to_string k ++ [')']) (coeff k 0)
  else
    (List.range rows).flatMap fun k => (List.range cols).flatMap fun l =>
      names (name ++ ['('] ++ to_string k ++ [',',' '] ++ to_string l ++ [')']) (coeff k l)

def names (name : Text) : Attribute A → List (Text × A)
  | .int attr | .real attr => scalarNames name attr
  | .complex real imag => complexNames name (real,imag)
  | .realMatrix rows cols coeff => matrixNames scalarNames name rows cols coeff
  | .complexMatrix rows cols coeff => matrixNames complexNames name rows cols coeff
  | .other => []

def register (lg : DataLogger A) (pairs : List (Text × A)) : DataLogger A :=
  { lg with mAttributes := lg.mAttributes.insertAll pairs }

theorem register_append (lg : DataLogger A) (xs ys : List (Text × A)) :
    lg.register (xs ++ ys) = (lg.register xs).register ys := by
  simp [register,OrderedMap.insertAll_append]

theorem foldl_register {items : List α} {add : DataLogger A → α → DataLogger A}
    {pairs : α → List (Text × A)} (adds : ∀ lg x, add lg x = lg.register (pairs x)) (lg : DataLogger A) :
    items.foldl add lg = lg.register (items.flatMap pairs) := by
  induction items generalizing lg with
  | nil => rfl
  | cons x items ih => rw [List.foldl_cons,ih,adds,List.flatMap_cons,register_append]

theorem addMatrix_register {T : Type} {add : Text → T → DataLogger A → DataLogger A}
    {pairs : Text → T → List (Text × A)} (adds : ∀ name t lg, add name t lg = lg.register (pairs name t))
    (name : Text) (rows cols : Nat) (coeff : Nat → Nat → T) (lg : DataLogger A) :
    lg.addMatrix add name rows cols coeff = lg.register (matrixNames pairs name rows cols coeff) := by
  unfold addMatrix matrixNames
  split
  · exact adds ..
  · split
    · apply foldl_register
      intro lg k
      exact adds ..
    · apply foldl_register
      intro lg k
      apply foldl_register
      intro lg l
      exact adds ..

/-- A call registers its coefficients, and only an attribute of another type throws. -/
theorem apply_addAttribute (name : Text) (attr : Attribute A) (lg : DataLogger A) :
    lg.apply (.addAttribute name attr) = lg.register (names name attr) := by
  cases attr with
  | int | real | complex => rfl
  | realMatrix rows cols coeff =>
    have adds (name : Text) (attr : A) (lg : DataLogger A) :
        lg.addScalar name attr = lg.register (scalarNames name attr) := rfl
    exact addMatrix_register adds name rows cols coeff lg
  | complexMatrix rows cols coeff =>
    have adds (name : Text) (attr : A × A) (lg : DataLogger A) :
        lg.addComplex name attr = lg.register (complexNames name attr) := rfl
    exact addMatrix_register adds name rows cols coeff lg
  | other => rfl

def registered (calls : List (Call A)) : List (Text × A) :=
  calls.flatMap fun | .addAttribute name attr => names name attr | .log _ _ => []

def logged (calls : List (Call A)) : List (Formatted × (A → Formatted)) :=
  calls.filterMap fun | .addAttribute _ _ => none | .log time values => some (time,values)

def unlogged (calls : List (Call A)) : List (Call A) :=
  calls.takeWhile fun | .addAttribute _ _ => true | .log _ _ => false

/-- The lines after the first, as the map grows. -/
def rowLines (m : OrderedMap Text A) : List (Call A) → List Text
  | [] => []
  | .addAttribute name attr :: calls => rowLines (m.insertAll (names name attr)) calls
  | .log time values :: calls => rowLine m time values :: rowLines m calls

theorem headerLine_joined (m : OrderedMap Text A) :
    headerLine m = Separated.joined ',' (setw 14 ['t','i','m','e']) (m.keys.map column) := by
  simp [headerLine,Separated.joined,OrderedMap.keys,column,List.flatMap_map]

theorem rowLine_joined (m : OrderedMap Text A) (time : Formatted) (values : A → Formatted) :
    rowLine m time values =
      Separated.joined ',' (setw 14 time.1) (m.entries.map fun it => column (values it.2).1) := by
  simp [rowLine,Separated.joined,column,List.flatMap_map]

theorem mem_setw {c : Char} (visible : c ≠ ' ') (width : Nat) (text : Text) :
    c ∈ setw width text ↔ c ∈ text := by
  simp [setw,visible]

theorem mem_column {c : Char} (visible : c ≠ ' ') (text : Text) : c ∈ column text ↔ c ∈ text := by
  simp [column,visible,mem_setw visible]

theorem rowLine_fields (m : OrderedMap Text A) (time : Formatted) (values : A → Formatted) :
    (rowLine m time values).splitOn ',' =
      setw 14 time.1 :: m.entries.map fun it => column (values it.2).1 := by
  have first : ',' ∉ setw 14 time.1 := by
    rw [mem_setw (by decide)]
    exact time.2.1
  rw [rowLine_joined,Separated.splitOn_joined,List.splitOn_eq_singleton first,Separated.splitOn_pieces,
    List.singleton_append]
  intro piece member
  obtain ⟨it,_,rfl⟩ := List.mem_map.mp member
  rw [mem_column (by decide)]
  exact (values it.2).2.1

theorem rowLine_plain (m : OrderedMap Text A) (time : Formatted) (values : A → Formatted) :
    '\n' ∉ rowLine m time values := by
  intro member
  rw [rowLine_joined,Separated.joined,List.mem_append,mem_setw (by decide)] at member
  rcases member with first | rest
  · exact time.2.2 first
  · simp only [List.flatMap_map,List.mem_flatMap,List.mem_cons,Char.reduceEq,false_or,
      mem_column (show '\n' ≠ ' ' by decide)] at rest
    obtain ⟨it,_,inside⟩ := rest
    exact (values it.2).2.2 inside

theorem headerLine_fields (m : OrderedMap Text A) : (headerLine m).splitOn ',' =
    setw 14 ['t','i','m','e'] :: (m.keys.map column).flatMap (·.splitOn ',') := by
  rw [headerLine_joined,Separated.splitOn_joined]
  rfl

section Files

theorem registered_cons (name : Text) (attr : Attribute A) (calls : List (Call A)) :
    registered (.addAttribute name attr :: calls) = names name attr ++ registered calls := List.flatMap_cons

theorem run_cons (lg : DataLogger A) (name : Text) (attr : Attribute A) (calls : List (Call A)) :
    lg.run (.addAttribute name attr :: calls) = (lg.register (names name attr)).run calls := by
  rw [run,List.foldl_cons,apply_addAttribute]
  rfl

theorem run_rows {lg : DataLogger A} {text : Text} (file : lg.mLogFile = some text) (begun : text ≠ [])
    (calls : List (Call A)) : (lg.run calls).mLogFile =
      some (text ++ Separated.terminated '\n' (rowLines lg.mAttributes calls)) := by
  induction calls generalizing lg text with
  | nil => simpa [run,rowLines,Separated.terminated] using file
  | cons call calls ih =>
    cases call with
    | addAttribute name attr =>
      rw [run_cons]
      exact ih file begun
    | log time values =>
      have more : (lg.log time values).mLogFile =
          some (text ++ rowLine lg.mAttributes time values ++ ['\n']) := by
        simp [log,file,begun]
      have later := ih more (by simp)
      have same : (lg.log time values).mAttributes = lg.mAttributes := rfl
      simpa [run,apply,rowLines,Separated.terminated,same] using later

/-- The lines of the file, if anything has been logged. -/
def fileLines (m : OrderedMap Text A) (calls : List (Call A)) : List Text :=
  if logged calls = [] then [] else headerLine (m.insertAll (registered (unlogged calls))) :: rowLines m calls

theorem run_file {lg : DataLogger A} (file : lg.mLogFile = some []) (calls : List (Call A)) :
    (lg.run calls).mLogFile = some (Separated.terminated '\n' (fileLines lg.mAttributes calls)) := by
  induction calls generalizing lg with
  | nil => exact file
  | cons call calls ih =>
    cases call with
    | addAttribute name attr =>
      have later := ih (show (lg.register (names name attr)).mLogFile = some [] from file)
      rw [run_cons,later]
      simp [fileLines,logged,unlogged,registered_cons,rowLines,register,OrderedMap.insertAll_append]
    | log time values =>
      have begun : (lg.log time values).mLogFile =
          some (headerLine lg.mAttributes ++ ['\n'] ++ rowLine lg.mAttributes time values ++ ['\n']) := by
        simp [log,file]
      have later := run_rows begun (by simp) calls
      simpa [run,apply,fileLines,logged,unlogged,registered,rowLines,Separated.terminated,log,
        OrderedMap.insertAll] using later

theorem rowLines_forall (m : OrderedMap Text A) (calls : List (Call A)) :
    List.Forall₂ (fun row (log : Formatted × (A → Formatted)) => ∃ pairs, (∀ p ∈ pairs, p ∈ registered calls) ∧
        (∀ p ∈ registered (unlogged calls), p ∈ pairs) ∧ row = rowLine (m.insertAll pairs) log.1 log.2)
      (rowLines m calls) (logged calls) := by
  induction calls generalizing m with
  | nil => exact .nil
  | cons call calls ih =>
    cases call with
    | addAttribute name attr =>
      refine (ih (m.insertAll (names name attr))).imp fun row log => ?_
      rintro ⟨pairs,some,early,rfl⟩
      refine ⟨names name attr ++ pairs,fun p member => ?_,fun p member => ?_,?_⟩
      · rw [registered_cons]
        exact List.mem_append.mpr ((List.mem_append.mp member).imp_right (some p))
      · rw [unlogged,List.takeWhile_cons_of_pos rfl,registered_cons] at member
        exact List.mem_append.mpr ((List.mem_append.mp member).imp_right (early p))
      · rw [OrderedMap.insertAll_append]
    | log time values =>
      refine .cons ⟨[],by simp,by simp [unlogged,registered],rfl⟩ ((ih m).imp fun row log => ?_)
      rintro ⟨pairs,some,_,rfl⟩
      exact ⟨pairs,some,by simp [unlogged,registered],rfl⟩

theorem rowLines_plain (m : OrderedMap Text A) (calls : List (Call A)) :
    ∀ row ∈ rowLines m calls, '\n' ∉ row := by
  induction calls generalizing m with
  | nil => simp [rowLines]
  | cons call calls ih =>
    cases call with
    | addAttribute name attr => exact ih _
    | log time values => exact List.forall_mem_cons.mpr ⟨rowLine_plain m time values,ih m⟩

end Files

/-- The header and the rows make up a table: as many fields in each line, the time first, in each
column the values of an attribute that has the name in the header, and a column of its own for
every registered coefficient. -/
structure Table (calls : List (Call A)) (header : Text) (rows : List Text) : Prop where
  values : List.Forall₂ (fun row (log : Formatted × (A → Formatted)) =>
    (row.splitOn ',').length = (header.splitOn ',').length ∧
      (row.splitOn ',')[0]? = some (setw 14 log.1.1) ∧
      ∀ i : Nat, i + 1 < (header.splitOn ',').length → ∃ p ∈ registered calls,
        (header.splitOn ',')[i + 1]? = some (column p.1) ∧
          (row.splitOn ',')[i + 1]? = some (column (log.2 p.2).1)) rows (logged calls)
  own : ∃ col : Text × A → Nat,
    (∀ p ∈ registered calls, (header.splitOn ',')[col p + 1]? = some (column p.1)) ∧
    (∀ p ∈ registered calls, ∀ q ∈ registered calls, col p = col q → p = q) ∧
    List.Forall₂ (fun row (log : Formatted × (A → Formatted)) =>
      ∀ p ∈ registered calls, (row.splitOn ',')[col p + 1]? = some (column (log.2 p.2).1))
      rows (logged calls)

/-- The file is empty, or a header and one row for each `log` call, which make up a table. -/
def WellFormed (calls : List (Call A)) (text : Text) : Prop :=
  text = [] ∨ ∃ header rows, text.splitOn '\n' = header :: rows ++ [[]] ∧ Table calls header rows

/-- No registered name holds a comma or a line break, no two coefficients have one name, and
every name is registered before the first `log`. -/
structure Orderly (calls : List (Call A)) : Prop where
  plain : ∀ p ∈ registered calls, ',' ∉ p.1 ∧ '\n' ∉ p.1
  single : ∀ p ∈ registered calls, ∀ q ∈ registered calls, p.1 = q.1 → p = q
  early : ∀ p ∈ registered calls, p.1 ∈ (registered (unlogged calls)).map Prod.fst

section Tables
variable {calls : List (Call A)}

def headerMap (calls : List (Call A)) : OrderedMap Text A :=
  OrderedMap.empty.insertAll (registered (unlogged calls))

theorem mem_headerMap (k : Text) :
    k ∈ (headerMap calls).keys ↔ k ∈ (registered (unlogged calls)).map Prod.fst :=
  OrderedMap.mem_keys_pairs _ k

theorem registered_unlogged {p : Text × A} (member : p ∈ registered (unlogged calls)) :
    p ∈ registered calls := by
  obtain ⟨call,inside,names⟩ := List.mem_flatMap.mp member
  exact List.mem_flatMap.mpr ⟨call,(List.takeWhile_sublist _).subset inside,names⟩

theorem headerMap_registered {k : Text} (member : k ∈ (headerMap calls).keys) :
    ∃ p ∈ registered calls, p.1 = k := by
  obtain ⟨p,early,rfl⟩ := List.mem_map.mp ((mem_headerMap k).mp member)
  exact ⟨p,registered_unlogged early,rfl⟩

theorem Orderly.header_fields (orderly : Orderly calls) : (headerLine (headerMap calls)).splitOn ',' =
    setw 14 ['t','i','m','e'] :: (headerMap calls).keys.map column := by
  rw [headerLine_fields,Separated.splitOn_pieces]
  intro piece member
  obtain ⟨k,inside,rfl⟩ := List.mem_map.mp member
  obtain ⟨p,given,rfl⟩ := headerMap_registered inside
  rw [mem_column (by decide)]
  exact (orderly.plain p given).1

theorem Orderly.header_plain (orderly : Orderly calls) : '\n' ∉ headerLine (headerMap calls) := by
  intro member
  rw [headerLine_joined,Separated.joined,List.mem_append,mem_setw (by decide)] at member
  rcases member with first | rest
  · simp at first
  · simp only [List.flatMap_map,List.mem_flatMap,List.mem_cons,Char.reduceEq,false_or,
      mem_column (show '\n' ≠ ' ' by decide)] at rest
    obtain ⟨k,inside,bad⟩ := rest
    obtain ⟨p,given,rfl⟩ := headerMap_registered inside
    exact (orderly.plain p given).2 bad

theorem Orderly.row_keys (orderly : Orderly calls) {pairs : List (Text × A)}
    (given : ∀ p ∈ pairs, p ∈ registered calls) (early : ∀ p ∈ registered (unlogged calls), p ∈ pairs) :
    (OrderedMap.empty.insertAll pairs).keys = (headerMap calls).keys := by
  apply OrderedMap.keys_ext
  intro k
  rw [mem_headerMap,OrderedMap.mem_keys_pairs]
  constructor <;> intro member <;> obtain ⟨p,inside,rfl⟩ := List.mem_map.mp member
  · exact orderly.early p (given p inside)
  · exact List.mem_map_of_mem (early p inside)

theorem Orderly.row_entry (orderly : Orderly calls) {pairs : List (Text × A)}
    (given : ∀ p ∈ pairs, p ∈ registered calls) (early : ∀ p ∈ registered (unlogged calls), p ∈ pairs)
    {i : Nat} {k : Text} (at_ : (headerMap calls).keys[i]? = some k) :
    ∃ p ∈ registered calls, p.1 = k ∧ (OrderedMap.empty.insertAll pairs).entries[i]? = some p := by
  rw [← orderly.row_keys given early,OrderedMap.keys,List.getElem?_map] at at_
  obtain ⟨p,here,rfl⟩ := Option.map_eq_some_iff.mp at_
  exact ⟨p,given p (OrderedMap.mem_pairs (List.mem_of_getElem? here)),rfl,here⟩

def place (calls : List (Call A)) (p : Text × A) : Nat := (headerMap calls).keys.idxOf p.1

theorem Orderly.place_spec (orderly : Orderly calls) {p : Text × A} (given : p ∈ registered calls) :
    (headerMap calls).keys[place calls p]? = some p.1 := by
  have member : p.1 ∈ (headerMap calls).keys := (mem_headerMap _).mpr (orderly.early p given)
  exact List.getElem?_idxOf member

theorem Orderly.table (orderly : Orderly calls) :
    Table calls (headerLine (headerMap calls)) (rowLines .empty calls) := by
  have header := orderly.header_fields
  have column_ {i : Nat} {k : Text} (at_ : (headerMap calls).keys[i]? = some k) :
      ((headerLine (headerMap calls)).splitOn ',')[i + 1]? = some (column k) := by
    rw [header,List.getElem?_cons_succ,List.getElem?_map,at_]
    rfl
  have rows := rowLines_forall .empty calls
  refine ⟨rows.imp ?_,place calls,?_,?_,rows.imp ?_⟩
  · rintro row log ⟨pairs,given,early,rfl⟩
    rw [rowLine_fields]
    refine ⟨?_,rfl,fun i bound => ?_⟩
    · have same := congrArg List.length (orderly.row_keys given early)
      simpa [header] using same
    rw [header,List.length_cons,List.length_map] at bound
    have at_ : (headerMap calls).keys[i]? = some _ := List.getElem?_eq_getElem (by omega)
    obtain ⟨p,inside,same,here⟩ := orderly.row_entry given early at_
    refine ⟨p,inside,same ▸ column_ at_,?_⟩
    rw [List.getElem?_cons_succ,List.getElem?_map,here]
    rfl
  · exact fun p given => column_ (orderly.place_spec given)
  · intro p hp q hq same
    have at_ := orderly.place_spec hp
    rw [same,orderly.place_spec hq] at at_
    exact orderly.single p hp q hq (Option.some.inj at_).symm
  · rintro row log ⟨pairs,given,early,rfl⟩ p hp
    obtain ⟨q,hq,same,here⟩ := orderly.row_entry given early (orderly.place_spec hp)
    rw [rowLine_fields,List.getElem?_cons_succ,List.getElem?_map,here,orderly.single q hq p hp same]
    rfl

/-- The first `log` writes the header and a row from one map. -/
theorem rowLines_first (some_ : logged calls ≠ []) (m : OrderedMap Text A) : ∃ time values rest,
    rowLines m calls = rowLine (m.insertAll (registered (unlogged calls))) time values :: rest := by
  induction calls generalizing m with
  | nil => exact absurd rfl some_
  | cons call calls ih =>
    cases call with
    | addAttribute name attr =>
      obtain ⟨time,values,rest,rows⟩ := ih some_ (m.insertAll (names name attr))
      refine ⟨time,values,rest,?_⟩
      rw [rowLines,rows,← OrderedMap.insertAll_append]
      rfl
    | log time values => exact ⟨time,values,rowLines m calls,rfl⟩

theorem Table.orderly (some_ : logged calls ≠ [])
    (table : Table calls (headerLine (headerMap calls)) (rowLines .empty calls))
    (unbroken : '\n' ∉ headerLine (headerMap calls)) : Orderly calls := by
  obtain ⟨time,values,rest,first⟩ := rowLines_first some_ (.empty : OrderedMap Text A)
  have widths : ((rowLine (headerMap calls) time values).splitOn ',').length =
      ((headerLine (headerMap calls)).splitOn ',').length := by
    have every := table.values
    rw [first] at every
    obtain ⟨_,_,here,_⟩ := List.forall₂_cons_left_iff.mp every
    exact here.1
  have plain : ∀ k ∈ (headerMap calls).keys, ',' ∉ k := by
    rw [rowLine_fields,headerLine_fields,List.length_cons,List.length_cons,List.length_map] at widths
    have same := (Separated.length_pieces_iff ',' ((headerMap calls).keys.map column)).mp
      (by simpa using (Nat.succ.inj widths).symm)
    intro k member
    rw [← mem_column (by decide)]
    exact same _ (List.mem_map_of_mem member)
  obtain ⟨col,titles,injective,_⟩ := table.own
  have bound {p : Text × A} (given : p ∈ registered calls) : col p < (headerMap calls).keys.length := by
    have inside := (List.getElem?_eq_some_iff.mp (titles p given)).1
    rw [← widths,rowLine_fields] at inside
    simpa using inside
  -- one coefficient for each column: there is none besides
  choose q given name using fun i : Fin (headerMap calls).keys.length =>
    headerMap_registered (List.getElem_mem i.2)
  have different : Function.Injective fun i => (⟨col (q i),bound (given i)⟩ : Fin _) := by
    intro i j same
    have equal := injective _ (given i) _ (given j) (congrArg Fin.val same)
    have names := (name i).symm.trans ((congrArg Prod.fst equal).trans (name j))
    exact Fin.ext ((headerMap calls).keys_nodup.getElem_inj_iff.mp names)
  have all {p : Text × A} (member : p ∈ registered calls) : ∃ i, q i = p := by
    obtain ⟨i,same⟩ := Finite.injective_iff_surjective.mp different ⟨col p,bound member⟩
    exact ⟨i,injective _ (given i) _ member (congrArg Fin.val same)⟩
  have known {p : Text × A} (member : p ∈ registered calls) : p.1 ∈ (headerMap calls).keys := by
    obtain ⟨i,rfl⟩ := all member
    exact name i ▸ List.getElem_mem i.2
  refine ⟨fun p member => ⟨plain _ (known member),fun broken => unbroken ?_⟩,?_,fun p member => ?_⟩
  · rw [headerLine_joined,Separated.joined]
    refine List.mem_append_right _ (List.mem_flatMap.mpr ⟨column p.1,List.mem_map_of_mem (known member),?_⟩)
    exact List.mem_cons_of_mem _ ((mem_column (by decide) _).mpr broken)
  · intro p hp p' hp' same
    obtain ⟨i,rfl⟩ := all hp
    obtain ⟨j,rfl⟩ := all hp'
    rw [name i,name j] at same
    have places := (headerMap calls).keys_nodup.getElem_inj_iff.mp same
    rw [Fin.ext places]
  · exact (mem_headerMap _).mp (known member)

end Tables

/-- After any calls on an open file, it is well formed exactly if nothing was logged, or no
registered name holds a comma or a line break, no two coefficients share a name and none comes
after the first `log`. -/
theorem csv_well_formed_iff (calls : List (Call A)) :
    ∃ text, ((make true).run calls).mLogFile = some text ∧
      (WellFormed calls text ↔ logged calls = [] ∨ Orderly calls) := by
  refine ⟨_,run_file rfl calls,?_⟩
  rw [fileLines]
  by_cases none : logged calls = []
  · simp [none,WellFormed,Separated.terminated]
  simp only [none,if_false,false_or]
  have split := Separated.splitOn_terminated '\n' (headerLine (headerMap calls) :: rowLines .empty calls)
  rw [List.flatMap_cons,Separated.splitOn_pieces (rowLines_plain .empty calls)] at split
  have rows : (rowLines .empty calls).length = (logged calls).length := (rowLines_forall .empty calls).length_eq
  constructor
  · rintro (empty | ⟨header,rows',lines,table⟩)
    · simp [Separated.terminated] at empty
    · have many : rows'.length = (logged calls).length := table.values.length_eq
      have same := List.append_cancel_right (split.symm.trans lines)
      have lengths := congrArg List.length same
      simp only [List.length_append,List.length_cons] at lengths
      have unbroken := (Separated.length_splitOn_iff '\n' (headerLine (headerMap calls))).mp (by omega)
      rw [List.splitOn_eq_singleton unbroken,List.singleton_append] at same
      obtain ⟨rfl,rfl⟩ := List.cons.inj same
      exact table.orderly none unbroken
  · intro orderly
    refine .inr ⟨_,_,?_,orderly.table⟩
    rw [List.splitOn_eq_singleton orderly.header_plain] at split
    exact split

def vectorLogged : List (Call Nat) :=
  [.addAttribute ['m'] (.realMatrix 1 2 fun _ l => l),.log ⟨['0'],by decide⟩ fun _ => ⟨['1'],by decide⟩]

/-- Of the names `m(0, 0)` and `m(0, 1)` come four fields. -/
theorem comma_in_header : ¬ ∀ (calls : List (Call Nat)) (text : Text),
    ((make true).run calls).mLogFile = some text → WellFormed calls text := by
  intro every
  have file := every vectorLogged _ (run_file rfl vectorLogged)
  have lines : (Separated.terminated '\n' (fileLines (make true).mAttributes vectorLogged)).splitOn '\n' =
      fileLines (make true).mAttributes vectorLogged ++ [[]] := by decide
  rcases file with empty | ⟨header,rows,split,table⟩
  · exact absurd empty (by decide)
  have same := List.append_cancel_right (lines.symm.trans split)
  obtain ⟨rfl,rfl⟩ := List.cons.inj same
  obtain ⟨_,_,first,_⟩ := List.forall₂_cons_left_iff.mp table.values
  exact absurd first.1 (by decide)

end DataLogger
end DPsim
