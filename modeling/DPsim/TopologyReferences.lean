import DPsim.KeywordArguments
import DPsim.ReferenceCounts
import DPsim.Transition

/-! The reference counts of the objects that the bindings of topologies handle: `add_component`,
`add_node`, `load_cim`, and the construction and the end of a `Simulation`. The holders are the variables
of the caller, the entries of dictionaries and the fields of objects. -/
namespace DPsim.Python
open PyArg RefCount Transition

variable {F Obj : Type}

/-- An object that is passed to a call. -/
structure Ref (F Obj : Type) where
  address : Nat
  value : Value F (PyObject Obj)

structure Entries where
  components : List String
  nodes : List String
  deriving DecidableEq, Repr

/-- The objects; `next` is the first address that is not in use. A live `Simulation` has its `pySys`. -/
structure Objects where
  refs : Ledger Nat
  next : Nat
  topologies : Nat → Entries
  simulations : Nat → Option Nat

namespace Objects

def did (w : Objects) (ops : List (Op Nat)) (next : Nat) : Objects := { w with
  refs := RefCount.run w.refs ops
  next := next }

end Objects

/-- `PyDict_SetItem` of a new key. -/
def setItem (key value : Nat) : List (Op Nat) := [.incref key,.hold key,.incref value,.hold value]

def values (args : List (Ref F Obj)) : List (Value F (PyObject Obj)) := args.map Ref.value

def keywordValues (kwargs : List (String × Ref F Obj)) : List (String × Value F (PyObject Obj)) :=
  kwargs.map fun (name,r) => (name,r.value)

/-- The object that is passed for a parameter. -/
def passedRef (args : List (Ref F Obj)) (kwargs : List (String × Ref F Obj)) (i : Nat) (name : String) :
    Option (Ref F Obj) := args[i]? <|> kwargs.lookup name

theorem lookup_values {kwargs : List (String × Ref F Obj)} {name : String} :
    (keywordValues kwargs).lookup name = (kwargs.lookup name).map Ref.value := by
  induction kwargs with
  | nil => rfl
  | cons entry kwargs ih =>
    obtain ⟨other,r⟩ := entry
    cases same : name == other with
    | true => simp [keywordValues,List.lookup_cons,same]
    | false => simpa [keywordValues,List.lookup_cons,same] using ih

theorem passedRef_value (args : List (Ref F Obj)) (kwargs : List (String × Ref F Obj)) (i : Nat) (name : String) :
    (passedRef args kwargs i name).map Ref.value = ((values args)[i]? <|> (keywordValues kwargs).lookup name) := by
  rw [lookup_values,values,List.getElem?_map,passedRef]
  cases args[i]? <;> rfl

theorem passedRef_mem {args : List (Ref F Obj)} {kwargs : List (String × Ref F Obj)} {i : Nat} {name : String}
    {r : Ref F Obj} (found : passedRef args kwargs i name = some r) : r ∈ args ++ kwargs.map Prod.snd := by
  unfold passedRef at found
  cases positional : args[i]? with
  | some r' =>
    rw [positional] at found
    cases found
    exact List.mem_append_left _ (List.mem_of_getElem? positional)
  | none =>
    rw [positional] at found
    apply List.mem_append_right
    obtain ⟨before,after,rfl,_⟩ := List.lookup_eq_some_iff.mp found
    simp

namespace SystemTopology

/-- `addComponent` and `addNode` from `PyUnicode_FromString` on: the operations, and whether there is
a new entry. -/
def addEntry (duplicate : String) (names : List String) (pyName : Nat) (name : String) (pyObj : Nat) :
    List (Op Nat) × Result :=
  if name ∈ names then ([.incref pyName],raiseTypeError duplicate)
  else (.incref pyName :: setItem pyName pyObj ++ [.decref pyName,.decref pyObj],none)

/-- The component of a wrapper; the name of none is read through a null pointer. -/
def wrappedComponent : Value F (PyObject Obj) → Option (Option Obj)
  | .object (.component comp) => some comp
  | _ => none

def topoNode : Value F (PyObject Obj) → Option (Option Obj)
  | .object (.realNode node) => some node
  | .object (.complexNode node) => some node
  | _ => none

structure Dict where
  names : Entries → List String
  add : Entries → String → Entries

namespace Dict

def pyComponentDict : Dict := ⟨Entries.components,fun e name => { e with components := e.components ++ [name] }⟩
def pyNodeDict : Dict := ⟨Entries.nodes,fun e name => { e with nodes := e.nodes ++ [name] }⟩

end Dict

section Adding
variable [Interpreter F (PyObject Obj)]

/-- `addComponent` and `addNode`, with their own check of the type, dictionary and messages. -/
def add (wrapped : Value F (PyObject Obj) → Option (Option Obj)) (dict : Dict) (wrongType duplicate : String)
    (name : Obj → String) (self : Nat) (args : List (Ref F Obj)) (w : Objects) : Option (Objects × Result) :=
  match (parseTuple [.O] (values args)).raised, args with
  | some raised, _ => some (w,some raised)
  | none, [pyObj] =>
    match wrapped pyObj.value with
    | none => some (w,raiseTypeError wrongType)
    | some none => none
    | some (some obj) =>
      let entries := w.topologies self
      let (ops,result) := addEntry duplicate (dict.names entries) w.next (name obj) pyObj.address
      let w := w.did ops (w.next + 1)
      some (match result with
        | some raised => (w,some raised)
        | none => ({ w with
            topologies := Function.update w.topologies self (dict.add entries (name obj)) },none))
  | none, _ => none

def addComponent : (Obj → String) → Nat → List (Ref F Obj) → Objects → Option (Objects × Result) :=
  add wrappedComponent .pyComponentDict "Argument must be dpsim.Component"
    "SystemTopology already contains a component with this name"

def addNode : (Obj → String) → Nat → List (Ref F Obj) → Objects → Option (Objects × Result) :=
  add topoNode .pyNodeDict "Argument must be dpsim.Node" "SystemTopology already contains a node with this name"

end Adding
end SystemTopology

/-- An element of a list of file names; without a `path`, `PyUnicode_FSConverter` refuses it. -/
structure FileItem where
  address : Nat
  bytes : Bool
  path : Option String

/-- What `load_cim` finds in an object. -/
inductive Files where
  | list (items : List FileItem)
  | bytes (path : Option String)
  | other

/-- What the CIM reader of the component library makes of the files: the names of the components, and
those of the nodes with the type of their voltages, if it is one of the two. -/
inductive Loaded where
  | invalid
  | topology (components : List String) (nodes : List (String × Option VarType))

structure CimLibrary (F : Type) where
  fifty : F
  info : Int32
  loadCIM : String → Int32 → F → List String → Loaded

namespace LoadCim

@[ext]
structure LoadLocals (F Obj : Type) where
  name : Option String
  filenames : Option (Value F (PyObject Obj))
  frequency : Option F
  logLevel : Option Int32

namespace LoadLocals

def nameVar : Variable (LoadLocals F Obj) (Option String) := ⟨fun m f => { f with name := m f.name },fun _ => rfl⟩
def filenamesVar : Variable (LoadLocals F Obj) (Option (Value F (PyObject Obj))) :=
  ⟨fun m f => { f with filenames := m f.filenames },fun _ => rfl⟩
def frequencyVar : Variable (LoadLocals F Obj) (Option F) :=
  ⟨fun m f => { f with frequency := m f.frequency },fun _ => rfl⟩
def logLevelVar : Variable (LoadLocals F Obj) (Option Int32) :=
  ⟨fun m f => { f with logLevel := m f.logLevel },fun _ => rfl⟩

end LoadLocals

def kwlist : List String := ["name","files","frequency","log_level"]

/-- `"sO|di"`. -/
def format : Format := ⟨[.s,.O],[.d,.i]⟩

def targets : List (Target F (PyObject Obj) (LoadLocals F Obj)) :=
  [.charPtr LoadLocals.nameVar,.pyObject LoadLocals.filenamesVar,.double LoadLocals.frequencyVar,
    .int LoadLocals.logLevelVar]

/-- The loop over a list of file names. A name that is not a `bytes` object is converted to a new one,
here at the address `filename`. -/
def convertItems (filename : Nat) : List FileItem → List (Op Nat) × Option (List String)
  | [] => ([],some [])
  | item :: items =>
    match item.path with
    | none => ([],none)
    | some path =>
      let filename' := if item.bytes then item.address else filename
      let (ops,paths) := convertItems filename items
      (.incref filename' :: .decref filename' :: ops,paths.map (path :: ·))

/-- A loop that fills a dictionary with wrappers, from the address `pyName` on; the entries say whether
there is a wrapper for them. -/
def fillDict (duplicate : String) (names : List String) (pyName : Nat) :
    List (String × Bool) → List (Op Nat) × Nat × Result
  | [] => ([],pyName,none)
  | (name,wrapped) :: entries =>
    if name ∈ names then ([.incref pyName],pyName + 1,some ⟨.attributeError,duplicate⟩)
    else if wrapped then
      let (ops,next,result) := fillDict duplicate (names ++ [name]) (pyName + 2) entries
      (.incref pyName :: .incref (pyName + 1) :: setItem pyName (pyName + 1) ++ ops,next,result)
    else ([.incref pyName],pyName + 1,some Exc.systemError.raise)

def unusable : Result := raiseTypeError "First argument must be filename or list of filenames"

/-- `LoadCim` from `Py_DECREF(filenames)` on; `before` are the operations until then. -/
def loadFiles (cim : CimLibrary F) (name : String) (frequency : F) (logLevel : Int32) (filenames : Nat)
    (before : List (Op Nat)) (cimFiles : List String) (w : Objects) : Objects × Result :=
  let before := before ++ [.decref filenames]
  if cimFiles = [] then (w.did before w.next,unusable)
  else
    let pySys := w.next
    let made := before ++ [.incref pySys,.incref (pySys + 1),.hold (pySys + 1),.incref (pySys + 2),.hold (pySys + 2)]
    match cim.loadCIM name logLevel frequency cimFiles with
    | .invalid => (w.did made (pySys + 3),raiseTypeError "The topology of the CIM model is invalid")
    | .topology components nodes =>
      let (ops,next,result) := fillDict "Duplicated Component name" [] (pySys + 3) (components.map (·,true))
      match result with
      | some raised => (w.did (made ++ ops) next,some raised)
      | none =>
        let (ops',next,result) := fillDict "Duplicated Node name" [] next
          (nodes.map fun (name,type) => (name,type.isSome))
        match result with
        | some raised => (w.did (made ++ ops ++ ops') next,some raised)
        | none => ({ w.did (made ++ ops ++ ops' ++ [.incref pySys,.hold pySys]) next with
            topologies := Function.update w.topologies pySys ⟨components,nodes.map Prod.fst⟩ },none)

section Load
variable [Interpreter F (PyObject Obj)] (cim : CimLibrary F) (files : Nat → Files)

def loadCim (args : List (Ref F Obj)) (kwargs : List (String × Ref F Obj)) (w : Objects) :
    Option (Objects × Result) :=
  let parsed := parseTupleAndKeywords format kwlist (values args) (keywordValues kwargs)
  (storeAll targets parsed.stored ⟨none,none,some cim.fifty,some cim.info⟩).bind fun f =>
    match parsed.raised, f.name, passedRef args kwargs 1 "files", f.frequency, f.logLevel with
    | some raised, _, _, _, _ => some (w,some raised)
    | none, some name, some filenames, some frequency, some logLevel =>
      match files filenames.address with
      | .list items =>
        match convertItems w.next items with
        | (ops,none) => some (w.did ops w.next,unusable)
        | (ops,some paths) => some (loadFiles cim name frequency logLevel filenames.address ops paths w)
      | .bytes none => some (w,unusable)
      | .bytes (some path) =>
        some (loadFiles cim name frequency logLevel filenames.address [.incref filenames.address] [path] w)
      | .other => some (w,unusable)
    | none, _, _, _, _ => none

end Load
end LoadCim

namespace Simulation
variable [Interpreter F (PyObject Obj)] [Literals F] [Div F] (info : Int32)

/-- `Simulation(...)`: a new object, and `init`, which lets the parser store the borrowed reference to
the system into the field. An object whose `init` fails is deallocated. -/
def construct (args : List (Ref F Obj)) (kwargs : List (String × Ref F Obj)) (w : Objects) :
    Option (Objects × Result) :=
  let parsed := parseTupleAndKeywords initFormat initKwlist (values args) (keywordValues kwargs)
  (storeAll initTargets parsed.stored (initLocals info none)).bind fun f =>
    let self := w.next
    let pySys := if f.pySys.isSome then passedRef args kwargs 1 "system" else none
    match pyInit info none (values args) (keywordValues kwargs), pySys with
    | some (.ok _), some pySys => some ({ w.did
        [.incref self,.hold pySys.address,.incref pySys.address,.hold self] (self + 1) with
          simulations := Function.update w.simulations self (some pySys.address) },none)
    | some (.error raised), some pySys => some (w.did
        [.incref self,.hold pySys.address,.decref self,.decref pySys.address,.release pySys.address] (self + 1),
        some raised)
    | some (.error raised), none => some (w.did [.incref self,.decref self] (self + 1),some raised)
    | _, _ => none

/-- The caller gives up a `Simulation`, which is deallocated if that was the last reference. -/
def dealloc (self : Nat) (w : Objects) : Option (Objects × Result) :=
  (w.simulations self).map fun pySys =>
    if w.refs.count self = 1 then
      ({ w.did [.release self,.decref self,.decref pySys,.release pySys] w.next with
          simulations := Function.update w.simulations self none },none)
    else (w.did [.release self,.decref self] w.next,none)

end Simulation

inductive RefCall (F Obj : Type) where
  | addComponent (self : Nat) (args : List (Ref F Obj))
  | addNode (self : Nat) (args : List (Ref F Obj))
  | loadCim (args : List (Ref F Obj)) (kwargs : List (String × Ref F Obj))
  | construct (args : List (Ref F Obj)) (kwargs : List (String × Ref F Obj))
  | dealloc (self : Nat)

namespace RefCall

def passed : RefCall F Obj → List (Ref F Obj)
  | .addComponent _ args | .addNode _ args => args
  | .loadCim args kwargs | .construct args kwargs => args ++ kwargs.map Prod.snd
  | .dealloc _ => []

/-- What is the component library's, or is outside of the program. -/
structure Library (F Obj : Type) where
  compName : Obj → String
  nodeName : Obj → String
  cim : CimLibrary F
  files : Nat → Files

variable [Interpreter F (PyObject Obj)] [Literals F] [Div F] (lib : Library F Obj)

def run (w : Objects) : RefCall F Obj → Option (Objects × Result)
  | .addComponent self args => SystemTopology.addComponent lib.compName self args w
  | .addNode self args => SystemTopology.addNode lib.nodeName self args w
  | .loadCim args kwargs => LoadCim.loadCim lib.cim lib.files args kwargs w
  | .construct args kwargs => Simulation.construct lib.cim.info args kwargs w
  | .dealloc self => Simulation.dealloc self w

def Step (w : Objects) (c : RefCall F Obj) (w' : Objects) : Prop :=
  (∀ r ∈ c.passed, r.address < w.next) ∧ ∃ result, c.run lib w = some (w',result)

/-- `load_cim` does not get beyond the file names. -/
def Unusable : Files → Prop
  | .list items => ∃ item ∈ items, item.path = none
  | .bytes path => path = none
  | .other => True

structure InitValid (f : Simulation.InitLocals F Obj) : Prop where
  simType : f.s = some 0 ∨ f.s = some 1
  solverType : f.t = some 0 ∨ f.t = some 1
  system : ∃ sys, f.pySys = some (.object (.systemTopology sys))

/-- No component and no node is added and no topology loaded, and a `Simulation` is only constructed
with valid arguments, or its arguments are refused before the system is taken from them. -/
def Keeps : RefCall F Obj → Prop
  | .addComponent _ args => ∀ r, args = [r] → SystemTopology.wrappedComponent r.value = none
  | .addNode _ args => ∀ r, args = [r] → SystemTopology.topoNode r.value = none
  | .loadCim args kwargs =>
    (parseTupleAndKeywords LoadCim.format LoadCim.kwlist (values args) (keywordValues kwargs)).raised ≠ none ∨
      ∀ r, passedRef args kwargs 1 "files" = some r → Unusable (lib.files r.address)
  | .construct args kwargs =>
    let parsed := parseTupleAndKeywords Simulation.initFormat Simulation.initKwlist (values args)
      (keywordValues kwargs)
    ∀ f, storeAll Simulation.initTargets parsed.stored (Simulation.initLocals lib.cim.info none) = some f →
      f.pySys = none ∨ (parsed.raised = none ∧ InitValid f)
  | .dealloc _ => True

end RefCall

section Excess

theorem excess_setItem (o key value : Nat) : excess o (setItem key value) = 0 := by
  simp only [setItem,excess_cons,excess_nil,Op.excess]
  split <;> split <;> rfl

/-- What is added is given one reference too few, and a name that is there already one too many. -/
theorem addEntry_excess (duplicate : String) (names : List String) {pyName : Nat} (name : String) {pyObj : Nat}
    (exists_ : pyObj < pyName) : ¬ ∀ o, excess o (SystemTopology.addEntry duplicate names pyName name pyObj).1 = 0 := by
  intro all
  unfold SystemTopology.addEntry at all
  split at all
  · have leaked := all pyName
    simp [Op.excess] at leaked
  · have dropped := all pyObj
    simp [excess_setItem,Op.excess,Nat.ne_of_gt exists_] at dropped

theorem convertItems_excess (o filename : Nat) (items : List FileItem) :
    excess o (LoadCim.convertItems filename items).1 = 0 := by
  induction items with
  | nil => rfl
  | cons item items ih =>
    unfold LoadCim.convertItems
    split
    · rfl
    · simp only [excess_cons,ih,Op.excess]
      generalize (if item.bytes = true then item.address else filename) = filename'
      split <;> rfl

theorem convertItems_none (filename : Nat) (items : List FileItem) :
    (LoadCim.convertItems filename items).2 = none ↔ ∃ item ∈ items, item.path = none := by
  induction items with
  | nil => simp [LoadCim.convertItems]
  | cons item items ih =>
    unfold LoadCim.convertItems
    split
    · rename_i refused
      simp [refused]
    · rename_i path accepted
      simp [accepted,ih]

theorem fillDict_excess (duplicate : String) (names : List String) {o : Nat} (pyName : Nat) (older : o < pyName)
    (entries : List (String × Bool)) : excess o (LoadCim.fillDict duplicate names pyName entries).1 = 0 ∧
      o < (LoadCim.fillDict duplicate names pyName entries).2.1 := by
  induction entries generalizing names pyName with
  | nil => exact ⟨rfl,older⟩
  | cons entry entries ih =>
    obtain ⟨name,wrapped⟩ := entry
    unfold LoadCim.fillDict
    split
    · simp [Op.excess,Nat.ne_of_gt older]
      omega
    · split
      · obtain ⟨none,later⟩ := ih (names ++ [name]) (pyName + 2) (by omega)
        refine ⟨?_,later⟩
        simp only [excess_append,excess_cons,excess_setItem,none,Op.excess]
        rw [if_neg (by omega),if_neg (by omega)]
        rfl
      · simp [Op.excess,Nat.ne_of_gt older]
        omega

end Excess

namespace Simulation

theorem choice_some {α : Type} {n : Int32} {a b c : α}
    (chosen : (match n.toInt with | 0 => some a | 1 => some b | _ => none) = some c) : n = 0 ∨ n = 1 := by
  split at chosen
  · rename_i zero
    exact .inl (Int32.toInt_inj.mp zero)
  · rename_i one
    exact .inr (Int32.toInt_inj.mp one)
  · contradiction

theorem choice_none {α : Type} {n : Int32} {a b : α}
    (refused : (match n.toInt with | 0 => some a | 1 => some b | _ => none) = none) : n ≠ 0 ∧ n ≠ 1 := by
  constructor
  · rintro rfl
    contradiction
  · rintro rfl
    contradiction

theorem initBody_ok [Div F] {f : InitLocals F Obj} {self : Initialized F Obj} (body : initBody f = some (.ok self)) :
    RefCall.InitValid f := by
  unfold initBody at body
  split at body
  · rename_i pySys _ _ _ _ s t _ _ _ _ _ _ _ _ system _ _ _ _ simType solverType _ _ _ _ _ _ _
    split at body
    · nomatch Option.some.inj body
    · rename_i domain first
      split at body
      · nomatch Option.some.inj body
      · rename_i solver second
        split at body
        · rename_i sys
          refine ⟨?_,?_,sys,system⟩
          · rw [simType,Option.some.injEq,Option.some.injEq]
            exact choice_some first
          · rw [solverType,Option.some.injEq,Option.some.injEq]
            exact choice_some second
        · nomatch Option.some.inj body
  · contradiction

theorem initBody_error [Div F] {f : InitLocals F Obj} {raised : Raised} (body : initBody f = some (.error raised)) :
    ¬ RefCall.InitValid f := by
  rintro ⟨simType,solverType,sys,system⟩
  unfold initBody at body
  split at body
  · rename_i pySys _ _ _ _ s t _ _ _ _ _ _ _ _ passed _ _ _ _ sIs tIs _ _ _ _ _ _ _
    rw [sIs,Option.some.injEq,Option.some.injEq] at simType
    rw [tIs,Option.some.injEq,Option.some.injEq] at solverType
    split at body
    · rename_i refused
      obtain ⟨notDP,notEMT⟩ := choice_none refused
      exact simType.elim notDP notEMT
    · split at body
      · rename_i refused
        obtain ⟨notMNA,notDAE⟩ := choice_none refused
        exact solverType.elim notMNA notDAE
      · split at body
        · nomatch Option.some.inj body
        · rename_i other
          exact other sys (Option.some.inj (passed.symm.trans system))
  · contradiction

end Simulation

section Calls
variable [Interpreter F (PyObject Obj)]

theorem did_balanced_iff {w : Objects} (balanced : Balanced w.refs) (ops : List (Op Nat)) (next : Nat) :
    Balanced (w.did ops next).refs ↔ ∀ o, excess o ops = 0 := run_balanced_iff balanced ops

/-- Operations that cancel out on every object. -/
theorem did_balanced {w : Objects} (balanced : Balanced w.refs) (next : Nat) {ops : List (Op Nat)}
    (cancel : ∀ o, excess o ops = 0) : Balanced (w.did ops next).refs :=
  (did_balanced_iff balanced ops next).mpr cancel

theorem did_unbalanced {w : Objects} (balanced : Balanced w.refs) {ops : List (Op Nat)} {o : Nat}
    (wrong : excess o ops ≠ 0) (next : Nat) : ¬ Balanced (w.did ops next).refs :=
  fun right => wrong ((did_balanced_iff balanced ops next).mp right o)

theorem parse_object {args : List (Ref F Obj)} :
    (parseTuple [.O] (values args)).raised = none ↔ ∃ r, args = [r] := by
  match args with
  | [] => simp [parseTuple,values,Exc.raise]
  | [r] => simp [parseTuple,values,parseLoop,Param.take,FormatUnit.convert,Parsed.cons]
  | r :: r' :: rest => simp [parseTuple,values,Exc.raise]

namespace SystemTopology

theorem addEntry_unbalanced {w w' : Objects} (balanced : Balanced w.refs) {duplicate : String} {names : List String}
    {name : String} {pyObj : Nat} (exists_ : pyObj < w.next)
    (refs : w'.refs = RefCount.run w.refs (addEntry duplicate names w.next name pyObj).1) : ¬ Balanced w'.refs := by
  rw [refs,run_balanced_iff balanced]
  exact addEntry_excess duplicate names name exists_

theorem add_balanced_iff {wrapped : Value F (PyObject Obj) → Option (Option Obj)} {dict : Dict}
    {wrongType duplicate : String} {name : Obj → String} {self : Nat} {args : List (Ref F Obj)} {w w' : Objects}
    {result : Result} (balanced : Balanced w.refs) (passed : ∀ r ∈ args, r.address < w.next)
    (done : add wrapped dict wrongType duplicate name self args w = some (w',result)) :
    Balanced w'.refs ↔ ∀ r, args = [r] → wrapped r.value = none := by
  cases parsed : (parseTuple [.O] (values args)).raised with
  | some raised =>
    have refused : ¬ ∃ r, args = [r] := fun one => by simp [parse_object.mpr one] at parsed
    simp only [add,parsed,Option.some.injEq,Prod.mk.injEq] at done
    obtain ⟨rfl,_⟩ := done
    exact iff_of_true balanced fun r one => absurd ⟨r,one⟩ refused
  | none =>
    obtain ⟨pyObj,rfl⟩ := parse_object.mp parsed
    simp only [add,parsed] at done
    split at done
    · rename_i other
      obtain ⟨rfl,_⟩ := Prod.mk.inj (Option.some.inj done)
      apply iff_of_true balanced
      rintro r one
      obtain ⟨rfl,_⟩ := List.cons.inj one
      exact other
    · contradiction
    · rename_i obj found
      apply iff_of_false
      · apply addEntry_unbalanced balanced (passed pyObj List.mem_cons_self)
        have added := congrArg (fun r => Objects.refs r.1) (Option.some.inj done)
        rw [← added]
        split <;> rfl
      · intro kept
        have absent := kept pyObj rfl
        rw [found] at absent
        contradiction

end SystemTopology

namespace LoadCim

/-- From `Py_DECREF(filenames)` on every path leaves a wrong count: that of `filenames` without a file,
and else that of the new topology. -/
theorem loadFiles_unbalanced (cim : CimLibrary F) (name : String) (frequency : F) (logLevel : Int32)
    {filenames : Nat} (before : List (Op Nat)) (cimFiles : List String) {w : Objects} (balanced : Balanced w.refs)
    (exists_ : filenames < w.next) (new : excess w.next before = 0)
    (files : cimFiles = [] → excess filenames before = 0) :
    ¬ Balanced (loadFiles cim name frequency logLevel filenames before cimFiles w).1.refs := by
  unfold loadFiles
  dsimp only
  split
  · rename_i empty
    apply did_unbalanced balanced (o := filenames)
    simp [files empty,Op.excess]
  · have made : excess w.next (before ++ [.decref filenames] ++ [.incref w.next,.incref (w.next + 1),
        .hold (w.next + 1),.incref (w.next + 2),.hold (w.next + 2)]) = 1 := by
      simp [new,Op.excess,Nat.ne_of_lt exists_]
    split
    · apply did_unbalanced balanced (o := w.next)
      rw [made]
      decide
    · rename_i components nodes _
      obtain ⟨kept,later⟩ := fillDict_excess "Duplicated Component name" [] (o := w.next) (w.next + 3)
        (by omega) (components.map (·,true))
      generalize fillDict "Duplicated Component name" [] (w.next + 3) (components.map (·,true)) = filled at *
      obtain ⟨ops,next,result⟩ := filled
      dsimp only at kept later ⊢
      split
      · apply did_unbalanced balanced (o := w.next)
        rw [excess_append,made,kept]
        decide
      · obtain ⟨kept',_⟩ := fillDict_excess "Duplicated Node name" [] next later
          (nodes.map fun (name,type) => (name,type.isSome))
        generalize fillDict "Duplicated Node name" [] next _ = filled at *
        obtain ⟨ops',next,result⟩ := filled
        dsimp only at kept' ⊢
        split
        · apply did_unbalanced balanced (o := w.next)
          rw [excess_append,excess_append,made,kept,kept']
          decide
        · refine did_unbalanced balanced (o := w.next) ?_ next
          rw [excess_append,excess_append,excess_append,made,kept,kept']
          simp [Op.excess]

theorem loadCim_balanced_iff {cim : CimLibrary F} {files : Nat → Files} {args : List (Ref F Obj)}
    {kwargs : List (String × Ref F Obj)} {w w' : Objects} {result : Result} (balanced : Balanced w.refs)
    (passed : ∀ r ∈ args ++ kwargs.map Prod.snd, r.address < w.next)
    (done : loadCim cim files args kwargs w = some (w',result)) :
    Balanced w'.refs ↔
      (parseTupleAndKeywords format kwlist (values args) (keywordValues kwargs)).raised ≠ none ∨
        ∀ r, passedRef args kwargs 1 "files" = some r → RefCall.Unusable (files r.address) := by
  unfold loadCim at done
  dsimp only at done
  generalize parseTupleAndKeywords format kwlist (values args) (keywordValues kwargs) = parsed at done ⊢
  obtain ⟨f,_,done⟩ := Option.bind_eq_some_iff.mp done
  split at done
  · rename_i raised refused
    cases done
    exact iff_of_true balanced (.inl (by simp [refused]))
  · rename_i name filenames frequency logLevel accepted _ found _ _
    have exists_ := passed filenames (passedRef_mem found)
    have kept : (parsed.raised ≠ none ∨ ∀ r, passedRef args kwargs 1 "files" = some r →
        RefCall.Unusable (files r.address)) ↔ RefCall.Unusable (files filenames.address) := by
      simp [accepted,found]
    rw [kept]
    split at done
    · rename_i items isList
      rw [isList]
      have settled := fun o => convertItems_excess o w.next items
      have refused := convertItems_none w.next items
      generalize convertItems w.next items = converted at *
      obtain ⟨ops,paths⟩ := converted
      cases paths with
      | none =>
        cases done
        exact iff_of_true (did_balanced balanced w.next settled) (refused.mp rfl)
      | some paths =>
        apply iff_of_false
        · have loaded := loadFiles_unbalanced cim name frequency logLevel ops paths balanced exists_
            (settled w.next) fun _ => settled filenames.address
          rwa [Option.some.inj done] at loaded
        · exact fun unusable => Option.some_ne_none paths (refused.mpr unusable)
    · rename_i isBytes
      cases done
      rw [isBytes]
      exact iff_of_true balanced rfl
    · rename_i path isBytes
      rw [isBytes]
      apply iff_of_false
      · have loaded := loadFiles_unbalanced cim name frequency logLevel [.incref filenames.address] [path] balanced
          exists_ (by simp [Op.excess,Nat.ne_of_lt exists_]) fun none => absurd none (List.cons_ne_nil path [])
        rwa [Option.some.inj done] at loaded
      · exact Option.some_ne_none path
    · rename_i isOther
      cases done
      rw [isOther]
      exact iff_of_true balanced trivial
  · contradiction

end LoadCim

namespace Simulation
variable [Literals F] (info : Int32)

theorem pySys_passed {args : List (Value F (PyObject Obj))} {kwargs : List (String × Value F (PyObject Obj))}
    {f : InitLocals F Obj} (stored : storeAll initTargets
      (parseTupleAndKeywords initFormat initKwlist args kwargs).stored (initLocals info none) = some f)
    {pySys : Value F (PyObject Obj)} (set : f.pySys = some pySys) :
    (args[1]? <|> kwargs.lookup "system") = some pySys := by
  unfold parseTupleAndKeywords at stored
  split at stored
  · cases stored
    contradiction
  · obtain rfl | ⟨_,name,f',_,_,_,first,stored⟩ | ⟨nameNeeded,_⟩ := storeAll_cons stored
    · contradiction
    · obtain rfl | ⟨v,x,f'',_,passed,converted,second,stored⟩ | ⟨systemNeeded,_⟩ := storeAll_cons stored
      · cases first
        contradiction
      · cases converted
        have kept : f.pySys = f''.pySys := by
          apply storeAll_keeps InitLocals.pySys ?_ stored
          iterate 13
            refine List.forall_mem_cons.mpr ⟨fun x frame frame' ran => Option.some.inj ran ▸ rfl,?_⟩
          exact List.forall_mem_nil _
        have here : f''.pySys = some v := Option.some.inj second ▸ rfl
        rw [List.head?_tail] at passed
        rw [← set,kept,here]
        exact passed
      · contradiction
    · contradiction

theorem pySys_ref {args : List (Ref F Obj)} {kwargs : List (String × Ref F Obj)} {f : InitLocals F Obj}
    (stored : storeAll initTargets (parseTupleAndKeywords initFormat initKwlist (values args)
      (keywordValues kwargs)).stored (initLocals info none) = some f) (set : f.pySys.isSome = true) :
    ∃ r, passedRef args kwargs 1 "system" = some r := by
  obtain ⟨v,held⟩ := Option.isSome_iff_exists.mp set
  have passed := pySys_passed info stored held
  rw [← passedRef_value] at passed
  obtain ⟨r,found,_⟩ := Option.map_eq_some_iff.mp passed
  exact ⟨r,found⟩

variable [Div F]

/-- `init` is left without an exception exactly if there was none in the parser and the arguments are right. -/
theorem init_valid_iff {args : List (Value F (PyObject Obj))} {kwargs : List (String × Value F (PyObject Obj))}
    {f : InitLocals F Obj} (stored : storeAll initTargets
      (parseTupleAndKeywords initFormat initKwlist args kwargs).stored (initLocals info none) = some f)
    (result : Except Raised (Initialized F Obj)) (made : pyInit info none args kwargs = some result) :
    (∃ self, result = .ok self) ↔
      (parseTupleAndKeywords initFormat initKwlist args kwargs).raised = none ∧ RefCall.InitValid f := by
  cases parsed : (parseTupleAndKeywords initFormat initKwlist args kwargs).raised with
  | some raised =>
    have refused : pyInit info none args kwargs = some (.error raised) := by
      unfold pyInit
      dsimp only
      rw [stored,parsed]
      rfl
    cases refused.symm.trans made
    simp
  | none =>
    rw [init_parsed stored parsed] at made
    cases result with
    | ok self => simpa using initBody_ok made
    | error raised => simpa using initBody_error made

theorem construct_balanced_iff {lib : RefCall.Library F Obj} {args : List (Ref F Obj)}
    {kwargs : List (String × Ref F Obj)} {w w' : Objects} {result : Result} (balanced : Balanced w.refs)
    (passed : ∀ r ∈ args ++ kwargs.map Prod.snd, r.address < w.next)
    (done : construct lib.cim.info args kwargs w = some (w',result)) :
    Balanced w'.refs ↔ (RefCall.construct args kwargs).Keeps lib := by
  unfold construct at done
  obtain ⟨f,stored,done⟩ := Option.bind_eq_some_iff.mp done
  have keeps : (RefCall.construct args kwargs).Keeps lib ↔ f.pySys = none ∨
      ((parseTupleAndKeywords initFormat initKwlist (values args) (keywordValues kwargs)).raised = none ∧
        RefCall.InitValid f) := by
    simp [RefCall.Keeps,stored]
  rw [keeps]
  dsimp only at done
  have valid := init_valid_iff lib.cim.info stored
  generalize pyInit lib.cim.info none (values args) (keywordValues kwargs) = made at done valid
  split at done
  · rename_i self r found
    obtain ⟨rfl,_⟩ := Prod.mk.inj (Option.some.inj done)
    apply iff_of_true
    · apply did_balanced balanced (w.next + 1)
      intro o
      simp only [excess_cons,excess_nil,Op.excess]
      omega
    · exact .inr ((valid _ rfl).mp ⟨self,rfl⟩)
  · rename_i raised r found
    obtain ⟨rfl,_⟩ := Prod.mk.inj (Option.some.inj done)
    obtain ⟨set,found⟩ := Option.ite_none_right_eq_some.mp found
    apply iff_of_false
    · apply did_unbalanced balanced (o := r.address)
      have older := passed r (passedRef_mem found)
      simp [Op.excess,Nat.ne_of_gt older]
    · rintro (unset | right)
      · simp [unset] at set
      · obtain ⟨self,ok⟩ := (valid _ rfl).mpr right
        contradiction
  · rename_i raised _ unset
    obtain ⟨rfl,_⟩ := Prod.mk.inj (Option.some.inj done)
    apply iff_of_true
    · apply did_balanced balanced (w.next + 1)
      intro o
      simp only [excess_cons,excess_nil,Op.excess]
      omega
    · split at unset
      · rename_i set
        obtain ⟨r,found⟩ := pySys_ref _ stored set
        simp [found] at unset
      · rename_i empty
        exact .inl (by simpa using empty)
  · contradiction

omit [Interpreter F (PyObject Obj)] [Literals F] [Div F] in
theorem dealloc_balanced {self : Nat} {w w' : Objects} {result : Result} (balanced : Balanced w.refs)
    (done : dealloc self w = some (w',result)) : Balanced w'.refs := by
  obtain ⟨pySys,_,done⟩ := Option.map_eq_some_iff.mp done
  split at done
  · obtain ⟨rfl,_⟩ := Prod.mk.inj done
    apply did_balanced balanced w.next
    intro o
    simp only [excess_cons,excess_nil,Op.excess]
    omega
  · obtain ⟨rfl,_⟩ := Prod.mk.inj done
    apply did_balanced balanced w.next
    intro o
    simp only [excess_cons,excess_nil,Op.excess]
    omega

end Simulation

namespace RefCall
variable [Literals F] [Div F] {lib : Library F Obj}

theorem step_balanced_iff {w w' : Objects} {c : RefCall F Obj} (balanced : Balanced w.refs)
    (step : Step lib w c w') : Balanced w'.refs ↔ c.Keeps lib := by
  obtain ⟨passed,result,done⟩ := step
  cases c with
  | addComponent self args => exact SystemTopology.add_balanced_iff balanced passed done
  | addNode self args => exact SystemTopology.add_balanced_iff balanced passed done
  | loadCim args kwargs => exact LoadCim.loadCim_balanced_iff balanced passed done
  | construct args kwargs => exact Simulation.construct_balanced_iff balanced passed done
  | dealloc self => exact iff_of_true (Simulation.dealloc_balanced balanced done) trivial

/-- The counts are right after every call of a run exactly if each of its calls keeps them so. -/
theorem runs_balanced_iff {w u : Objects} {trace : List (Objects × RefCall F Obj)}
    (path : Path (Step lib) w trace u) (balanced : Balanced w.refs) :
    (∀ x ∈ states trace u, Balanced x.refs) ↔ ∀ p ∈ trace, p.2.Keeps lib :=
  path.good_iff_guarded (P := fun _ => True) (fun _ _ _ _ _ => trivial)
    (fun _ _ _ _ balanced step => step_balanced_iff balanced step) trivial balanced

end RefCall
end Calls

section Examples

def caller : Objects where
  refs := ⟨fun o => if o < 3 then 1 else 0,fun o => if o < 3 then 1 else 0⟩
  next := 3
  topologies _ := ⟨[],[]⟩
  simulations _ := none

def pySystem : Ref ℚ Nat := ⟨0,.object (.systemTopology 0)⟩
def pyLoad : Ref ℚ Nat := ⟨1,.object (.component (some 0))⟩
def pyName : Ref ℚ Nat := ⟨2,.str "test"⟩

def oneLibrary : RefCall.Library ℚ Nat where
  compName _ := "load"
  nodeName _ := "bus"
  cim := ⟨50,2,fun _ _ _ _ => .topology ["load"] [("bus",some .complex)]⟩
  files _ := .other

/-- `Simulation("test", system)`, which is given up again. -/
theorem runs_balanced_iff_simulation : ∃ w u,
    Path (RefCall.Step oneLibrary) caller [(caller,.construct [pyName,pySystem] []),(w,.dealloc 3)] u ∧
      ∀ x ∈ states [(caller,RefCall.construct [pyName,pySystem] []),(w,.dealloc 3)] u, Balanced x.refs := by
  have path : Path (RefCall.Step oneLibrary) caller [(caller,.construct [pyName,pySystem] []),(_,.dealloc 3)] _ :=
    .cons ⟨by decide,none,rfl⟩ (.cons ⟨nofun,none,rfl⟩ .nil)
  refine ⟨_,_,path,(RefCall.runs_balanced_iff path fun _ => rfl).mpr ?_⟩
  rintro p (_ | ⟨_,_ | ⟨_,⟨⟩⟩⟩)
  · intro f stored
    cases stored
    exact .inr ⟨rfl,.inl rfl,.inl rfl,0,rfl⟩
  · trivial

/-- After `add_component(load)` the caller and the dictionary hold the component, which has one reference. -/
theorem add_component_dropped : ∃ w,
    Path (RefCall.Step oneLibrary) caller [(caller,.addComponent 0 [pyLoad])] w ∧ Balanced caller.refs ∧
      w.refs.count 1 = 1 ∧ w.refs.holders 1 = 2 ∧
      ¬ ∀ x ∈ states [(caller,RefCall.addComponent 0 [pyLoad])] w, Balanced x.refs := by
  have path : Path (RefCall.Step oneLibrary) caller [(caller,.addComponent 0 [pyLoad])] _ :=
    .single ⟨by decide,none,rfl⟩
  refine ⟨_,path,fun _ => rfl,rfl,rfl,fun balanced => ?_⟩
  have kept := balanced _ (final_mem_states _ _) 1
  contradiction

end Examples
end DPsim.Python
