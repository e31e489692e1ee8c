import DPsim.SlotBounds
import DPsim.SolverDomains

/-! Which variable a keyword of the Python entry points ends up in. Each of them has its format
string, its list of names and its list of targets, which only agree by position. -/
namespace DPsim.Python
open PyArg

/-- A keyword as a caller knows it: how its value is given, what it is by default, and what is to be
found in the variable or the field that it controls. -/
structure Keyword (F O State : Type) : Type 1 where
  param : Param
  /-- the values of the right type -/
  valid : param.unit.Stored F O → Prop
  default : (String → Option (Value F O)) → Option (param.unit.Stored F O)
  Held : Type
  meaning : (String → Option (Value F O)) → param.unit.Stored F O → Held
  held : State → Option Held
  fallback : param.required = false → ∀ given, ∃ x, default given = some x ∧ valid x

namespace Keyword
variable {F O State : Type}

def needed (unit : FormatUnit) (name : String) (valid : unit.Stored F O → Prop)
    (held : State → Option (unit.Stored F O)) : Keyword F O State :=
  ⟨⟨unit,name,true⟩,valid,fun _ => none,_,fun _ => id,held,nofun⟩

/-- What is held is computed from the value, and from those of other keywords. -/
def computed {Held : Type} (unit : FormatUnit) (name : String) (default : unit.Stored F O)
    (meaning : (String → Option (Value F O)) → unit.Stored F O → Held) (held : State → Option Held) :
    Keyword F O State :=
  ⟨⟨unit,name,false⟩,fun _ => True,fun _ => some default,Held,meaning,held,fun _ _ => ⟨default,rfl,trivial⟩⟩

def optional (unit : FormatUnit) (name : String) (default : unit.Stored F O)
    (held : State → Option (unit.Stored F O)) : Keyword F O State :=
  computed unit name default (fun _ => id) held

/-- A `p` that ends up in a `bool`. -/
def flag (name : String) (default : Int32) (held : State → Bool) : Keyword F O State :=
  computed .p name default (fun _ (n : Int32) => decide (n ≠ 0)) fun state => some (held state)

/-- One of two values, by default the first one. -/
def choice {Held : Type} (name : String) (first second : Held) (held : State → Held) : Keyword F O State :=
  computed .i name (0 : Int32) (fun _ (n : Int32) => if n = 0 then first else second) fun state =>
    some (held state)

/-- The keyword also has a part in something else that the call is to leave. -/
def acts {Left : Type} (k : Keyword F O State) (does : (String → Option (Value F O)) → Left)
    (left : State → Left) : Keyword F O State :=
  { k with
    Held := k.Held × Left
    meaning := fun given x => (k.meaning given x,does given)
    held := fun state => (k.held state).map (·,left state) }

variable [Interpreter F O]

/-- What a call asks for: the value that is passed, or the default. -/
def asked (k : Keyword F O State) (given : String → Option (Value F O)) : Option (k.param.unit.Stored F O) :=
  (k.param.converted given).elim (k.default given) some

/-- The value is of the right type, or it is left out and need not be given. -/
def TypeCorrect (k : Keyword F O State) (given : String → Option (Value F O)) : Prop :=
  match given k.param.name with
  | none => k.param.required = false
  | some v => ∃ x, k.param.unit.convert v = .ok x ∧ k.valid x

theorem TypeCorrect.asked {k : Keyword F O State} {given : String → Option (Value F O)}
    (correct : k.TypeCorrect given) : ∃ x, k.asked given = some x ∧ k.valid x := by
  unfold TypeCorrect at correct
  unfold Keyword.asked Param.converted
  split at correct
  · rename_i absent
    rw [absent]
    exact k.fallback correct given
  · rename_i v passed
    obtain ⟨x,converts,valid⟩ := correct
    rw [passed]
    exact ⟨x,by simp [converts,Except.toOption],valid⟩

theorem accepted {keywords : List (Keyword F O State)} {given : String → Option (Value F O)}
    (correct : ∀ k ∈ keywords, k.TypeCorrect given) : Accepted (keywords.map Keyword.param) given := by
  intro p member
  obtain ⟨k,listed,rfl⟩ := List.mem_map.mp member
  have typed := correct k listed
  unfold TypeCorrect at typed
  generalize given k.param.name = passed at typed ⊢
  cases passed with
  | none => exact typed
  | some v =>
    obtain ⟨x,converts,_⟩ := typed
    exact ⟨x,converts⟩

end Keyword

/-- A Python entry point: its keywords in order, and what a call leaves if it does not raise. -/
structure Callable (F O : Type) : Type 1 where
  State : Type
  keywords : List (Keyword F O State)
  run : List (Value F O) → List (String × Value F O) → Option (Except Raised State)

section Values
variable {F O : Type} [Interpreter F O]

/-- The value of an optional parameter. -/
def valueOf (unit : FormatUnit) (name : String) (default : unit.Stored F O) (given : String → Option (Value F O)) :
    unit.Stored F O := (Param.converted ⟨unit,name,false⟩ given).getD default

/-- Whether a value is passed that is true. -/
def truth (given : String → Option (Value F O)) (name : String) : Bool :=
  match given name with
  | none => false
  | some v => v.isTrue

end Values

namespace Simulation
variable {F Obj : Type}

/-- The variables whose addresses `init` passes to the parser; `self->pySys` is one of them. -/
@[ext]
structure InitLocals (F Obj : Type) where
  name : Option String
  pySys : Option (Value F (PyObject Obj))
  timestep : Option F
  duration : Option F
  startTime : Option UInt64
  startTimeUs : Option UInt64
  s : Option Int32
  t : Option Int32
  ss : Option Int32
  rt : Option Int32
  rtFactor : Option F
  st : Option Int32
  initSteadyState : Option Int32
  logLevel : Option Int32
  failOnOverrun : Option Int32

namespace InitLocals

def nameVar : Variable (InitLocals F Obj) (Option String) := ⟨fun m f => { f with name := m f.name },fun _ => rfl⟩
def pySysVar : Variable (InitLocals F Obj) (Option (Value F (PyObject Obj))) :=
  ⟨fun m f => { f with pySys := m f.pySys },fun _ => rfl⟩
def timestepVar : Variable (InitLocals F Obj) (Option F) :=
  ⟨fun m f => { f with timestep := m f.timestep },fun _ => rfl⟩
def durationVar : Variable (InitLocals F Obj) (Option F) :=
  ⟨fun m f => { f with duration := m f.duration },fun _ => rfl⟩
def startTimeVar : Variable (InitLocals F Obj) (Option UInt64) :=
  ⟨fun m f => { f with startTime := m f.startTime },fun _ => rfl⟩
def startTimeUsVar : Variable (InitLocals F Obj) (Option UInt64) :=
  ⟨fun m f => { f with startTimeUs := m f.startTimeUs },fun _ => rfl⟩
def sVar : Variable (InitLocals F Obj) (Option Int32) := ⟨fun m f => { f with s := m f.s },fun _ => rfl⟩
def tVar : Variable (InitLocals F Obj) (Option Int32) := ⟨fun m f => { f with t := m f.t },fun _ => rfl⟩
def ssVar : Variable (InitLocals F Obj) (Option Int32) := ⟨fun m f => { f with ss := m f.ss },fun _ => rfl⟩
def rtVar : Variable (InitLocals F Obj) (Option Int32) := ⟨fun m f => { f with rt := m f.rt },fun _ => rfl⟩
def rtFactorVar : Variable (InitLocals F Obj) (Option F) :=
  ⟨fun m f => { f with rtFactor := m f.rtFactor },fun _ => rfl⟩
def stVar : Variable (InitLocals F Obj) (Option Int32) := ⟨fun m f => { f with st := m f.st },fun _ => rfl⟩
def initSteadyStateVar : Variable (InitLocals F Obj) (Option Int32) :=
  ⟨fun m f => { f with initSteadyState := m f.initSteadyState },fun _ => rfl⟩
def logLevelVar : Variable (InitLocals F Obj) (Option Int32) :=
  ⟨fun m f => { f with logLevel := m f.logLevel },fun _ => rfl⟩
def failOnOverrunVar : Variable (InitLocals F Obj) (Option Int32) :=
  ⟨fun m f => { f with failOnOverrun := m f.failOnOverrun },fun _ => rfl⟩

end InitLocals

def initKwlist : List String :=
  ["name","system","timestep","duration","start_time","start_time_us","sim_type","solver_type",
    "single_stepping","rt","rt_factor","start_sync","init_steady_state","log_level","fail_on_overrun"]

/-- `"sO|ddkkiippdppip"`. -/
def initFormat : Format := ⟨[.s,.O],[.d,.d,.k,.k,.i,.i,.p,.p,.d,.p,.p,.i,.p]⟩

def initTargets : List (Target F (PyObject Obj) (InitLocals F Obj)) :=
  [.charPtr InitLocals.nameVar,.pyObject InitLocals.pySysVar,.double InitLocals.timestepVar,
    .double InitLocals.durationVar,.unsignedLong InitLocals.startTimeVar,.unsignedLong InitLocals.startTimeUsVar,
    .int InitLocals.sVar,.int InitLocals.tVar,.int InitLocals.ssVar,.int InitLocals.rtVar,
    .double InitLocals.rtFactorVar,.int InitLocals.stVar,.int InitLocals.initSteadyStateVar,
    .int InitLocals.logLevelVar,.int InitLocals.failOnOverrunVar]

/-- The variables before the parser runs; `info` is the component library's `Level::INFO`. -/
def initLocals [Literals F] (info : Int32) (pySys : Option (Value F (PyObject Obj))) : InitLocals F Obj :=
  ⟨none,pySys,some Literals.milli,some Literals.dblMax,some (-1),some 0,some 0,some 0,some 0,some 0,
    some Literals.one,some 0,some 0,some info,some 0⟩

/-- The arguments of the `Simulation` or `RealTimeSimulation` that is made. -/
structure SimArgs (F : Type) where
  realTime : Bool
  name : String
  sys : Nat
  timestep : F
  duration : F
  domain : Domain
  solverType : SolverType
  logLevel : Int32
  initSteadyState : Bool

/-- The object after `init`; `startTime` is `none` for `now()`. -/
structure Initialized (F Obj : Type) where
  pySys : Option (Value F (PyObject Obj))
  realTime : Bool
  startSync : Bool
  singleStepping : Bool
  failOnOverrun : Bool
  realTimeStep : F
  startTime : Option (UInt64 × UInt64)
  sim : SimArgs F

/-- `init` behind its parser. -/
def initBody [Div F] (f : InitLocals F Obj) : Option (Except Raised (Initialized F Obj)) :=
  match f.name, f.pySys, f.timestep, f.duration, f.startTime, f.startTimeUs, f.s, f.t, f.ss, f.rt, f.rtFactor,
    f.st, f.initSteadyState, f.logLevel, f.failOnOverrun with
  | some name, some pySys, some timestep, some duration, some startTime, some startTimeUs, some s, some t, some ss,
    some rt, some rtFactor, some st, some initSteadyState, some logLevel, some failOnOverrun =>
    match (match s.toInt with
      | 0 => some Domain.DP
      | 1 => some Domain.EMT
      | _ => none) with
    | none => some (.error ⟨.typeError,"Invalid sim_type argument (must be 0 or 1)"⟩)
    | some domain =>
      match (match t.toInt with
        | 0 => some SolverType.MNA
        | 1 => some SolverType.DAE
        | _ => none) with
      | none => some (.error ⟨.typeError,"Invalid solver_type argument (must be 0 or 1)"⟩)
      | some solverType =>
        match pySys with
        | .object (.systemTopology sys) => some (.ok {
            pySys := some pySys
            realTime := rt ≠ 0
            startSync := ss ≠ 0
            singleStepping := st ≠ 0
            failOnOverrun := failOnOverrun ≠ 0
            realTimeStep := timestep / rtFactor
            startTime := if 0 < startTime then some (startTime,startTimeUs) else none
            sim := ⟨rt ≠ 0,name,sys,timestep,duration,domain,solverType,logLevel,initSteadyState ≠ 0⟩ })
        | _ => some (.error ⟨.typeError,"Argument system must be dpsim.SystemTopology"⟩)
  | _, _, _, _, _, _, _, _, _, _, _, _, _, _, _ => none

section Init
variable [Interpreter F (PyObject Obj)] [Literals F] [Div F] (info : Int32)
  (pySys : Option (Value F (PyObject Obj)))

/-- `Simulation.__init__`; `pySys` is the field before. -/
def pyInit (args : List (Value F (PyObject Obj))) (kwargs : List (String × Value F (PyObject Obj))) :
    Option (Except Raised (Initialized F Obj)) :=
  let parsed := parseTupleAndKeywords initFormat initKwlist args kwargs
  (storeAll initTargets parsed.stored (initLocals info pySys)).bind fun f =>
    match parsed.raised with
    | some raised => some (.error raised)
    | none => initBody f

def isTopology (v : Value F (PyObject Obj)) : Prop := ∃ sys, v = .object (.systemTopology sys)

def initKeywords : List (Keyword F (PyObject Obj) (Initialized F Obj)) :=
  [.needed .s "name" (fun _ => True) fun self => some self.sim.name,
    (Keyword.needed .O "system" isTopology (·.pySys)).acts (Param.converted ⟨.O,"system",true⟩) fun self =>
      some (.object (.systemTopology self.sim.sys)),
    .optional .d "timestep" Literals.milli fun self => some self.sim.timestep,
    .optional .d "duration" Literals.dblMax fun self => some self.sim.duration,
    .computed .k "start_time" (-1 : UInt64)
      (fun given startTime => some (startTime,valueOf .k "start_time_us" (0 : UInt64) given)) (some ·.startTime),
    .computed .k "start_time_us" (0 : UInt64)
      (fun given startTimeUs => some (valueOf .k "start_time" (-1 : UInt64) given,startTimeUs)) (some ·.startTime),
    .choice "sim_type" Domain.DP Domain.EMT (·.sim.domain),
    .choice "solver_type" SolverType.MNA SolverType.DAE (·.sim.solverType),
    .flag "single_stepping" 0 (·.singleStepping),
    (Keyword.flag "rt" 0 (·.realTime)).acts (truth · "rt") (·.sim.realTime),
    .computed .d "rt_factor" Literals.one
      (fun given (rtFactor : F) => valueOf .d "timestep" Literals.milli given / rtFactor) (some ·.realTimeStep),
    .flag "start_sync" 0 (·.startSync),
    .flag "init_steady_state" 0 (·.sim.initSteadyState),
    .optional .i "log_level" info fun self => some self.sim.logLevel,
    .flag "fail_on_overrun" 0 (·.failOnOverrun)]

def initEntry : Callable F (PyObject Obj) := ⟨Initialized F Obj,initKeywords info,pyInit info pySys⟩

end Init

/-- The mapping that `add_interface` adds. -/
structure AddedInterface where
  intf : Nat
  sync : Bool
  startSync : Bool

section AddInterface
variable [Interpreter F (PyObject Obj)]

@[ext]
structure AddLocals (F Obj : Type) where
  pyObj : Option (Value F (PyObject Obj))
  sync : Option Int32
  start_sync : Option Int32

namespace AddLocals

def pyObjVar : Variable (AddLocals F Obj) (Option (Value F (PyObject Obj))) :=
  ⟨fun m f => { f with pyObj := m f.pyObj },fun _ => rfl⟩
def syncVar : Variable (AddLocals F Obj) (Option Int32) := ⟨fun m f => { f with sync := m f.sync },fun _ => rfl⟩
def startSyncVar : Variable (AddLocals F Obj) (Option Int32) :=
  ⟨fun m f => { f with start_sync := m f.start_sync },fun _ => rfl⟩

end AddLocals

def addKwlist : List String := ["intf","sync","sync_start"]

/-- `"O|pp"`. -/
def addFormat : Format := ⟨[.O],[.p,.p]⟩

def addTargets : List (Target F (PyObject Obj) (AddLocals F Obj)) :=
  [.pyObject AddLocals.pyObjVar,.int AddLocals.syncVar,.int AddLocals.startSyncVar]

def addInterfaceBody (f : AddLocals F Obj) : Option (Except Raised AddedInterface) :=
  match f.pyObj, f.sync, f.start_sync with
  | some pyObj, some sync, some start_sync =>
    let start_sync := if start_sync < 0 then sync else start_sync
    match pyObj with
    | .object (.interface intf) => some (.ok ⟨intf,sync ≠ 0,start_sync ≠ 0⟩)
    | _ => some (.error ⟨.typeError,"Argument must be dpsim.Interface"⟩)
  | _, _, _ => none

def addInterface (args : List (Value F (PyObject Obj))) (kwargs : List (String × Value F (PyObject Obj))) :
    Option (Except Raised AddedInterface) :=
  let parsed := parseTupleAndKeywords addFormat addKwlist args kwargs
  (storeAll addTargets parsed.stored ⟨none,some 1,some (-1)⟩).bind fun f =>
    match parsed.raised with
    | some raised => some (.error raised)
    | none => addInterfaceBody f

/-- Without a value of its own, `sync_start` is as `sync`. -/
def addKeywords : List (Keyword F (PyObject Obj) AddedInterface) :=
  [.needed .O "intf" (fun v => ∃ intf, v = .object (.interface intf))
      fun added => some (.object (.interface added.intf)),
    .flag "sync" 1 (·.sync),
    { param := ⟨.p,"sync_start",false⟩
      valid := fun _ => True
      default := fun given => (Param.converted (F := F) (O := PyObject Obj) ⟨.p,"sync",false⟩ given).elim (some 1) some
      Held := Bool
      meaning := fun _ (n : Int32) => decide (n ≠ 0)
      held := fun added => some added.startSync
      fallback := fun _ given => by
        cases Param.converted (F := F) (O := PyObject Obj) ⟨.p,"sync",false⟩ given with
        | none => exact ⟨1,rfl,trivial⟩
        | some n => exact ⟨n,rfl,trivial⟩ }]

def addEntry : Callable F (PyObject Obj) := ⟨AddedInterface,addKeywords,addInterface⟩

end AddInterface
end Simulation

namespace Interface
variable {F Obj : Type}

/-- The fields that `__init__` sets; `make` gets the same ones. -/
@[ext]
structure Config where
  wname : Option String
  rname : Option String
  queuelen : Option Int32
  samplelen : Option Int32
  polling : Option Int32

namespace Config

def wnameVar : Variable Config (Option String) := ⟨fun m f => { f with wname := m f.wname },fun _ => rfl⟩
def rnameVar : Variable Config (Option String) := ⟨fun m f => { f with rname := m f.rname },fun _ => rfl⟩
def queuelenVar : Variable Config (Option Int32) := ⟨fun m f => { f with queuelen := m f.queuelen },fun _ => rfl⟩
def samplelenVar : Variable Config (Option Int32) :=
  ⟨fun m f => { f with samplelen := m f.samplelen },fun _ => rfl⟩
def pollingVar : Variable Config (Option Int32) := ⟨fun m f => { f with polling := m f.polling },fun _ => rfl⟩

end Config

def initKwlist : List String := ["wname","rname","queuelen","samplelen","polling"]

/-- `"ss|iib"`. -/
def initFormat : Format := ⟨[.s,.s],[.i,.i,.b]⟩

def initTargets : List (Target F (PyObject Obj) Config) :=
  [.charPtr Config.wnameVar,.charPtr Config.rnameVar,.int Config.queuelenVar,.int Config.samplelenVar,
    .int Config.pollingVar]

section Entries
variable [Interpreter F (PyObject Obj)]

def init (self : Config) (args : List (Value F (PyObject Obj))) (kwargs : List (String × Value F (PyObject Obj))) :
    Option (Except Raised Config) :=
  let parsed := parseTupleAndKeywords initFormat initKwlist args kwargs
  (storeAll initTargets parsed.stored { self with
    queuelen := some 512
    samplelen := some 64
    polling := some 0 }).map fun self =>
    match parsed.raised with
    | some raised => .error raised
    | none => .ok self

def initKeywords : List (Keyword F (PyObject Obj) Config) :=
  [.needed .s "wname" (fun _ => True) (·.wname),
    .needed .s "rname" (fun _ => True) (·.rname),
    .optional .i "queuelen" (512 : Int32) (·.queuelen),
    .optional .i "samplelen" (64 : Int32) (·.samplelen),
    { param := ⟨.b,"polling",false⟩
      valid := fun _ => True
      default := fun _ => some (0 : UInt8)
      Held := Int32
      meaning := fun _ (byte : UInt8) => byte.toUInt32.toInt32
      held := (·.polling)
      fallback := fun _ _ => ⟨0,rfl,trivial⟩ }]

def initEntry (self : Config) : Callable F (PyObject Obj) := ⟨Config,initKeywords,init self⟩

section Attributes
variable [Literals F] (lib : AttributeList Obj)

/-- The parts that `export_attribute` is to bind for these values. -/
def exportFor (given : String → Option (Value F (PyObject Obj))) : List (Request Obj) :=
  match (Param.converted ⟨.O,"component",true⟩ given).bind identifiedObject,
    Param.converted ⟨.s,"attribute",true⟩ given, Param.converted ⟨.i,"idx",true⟩ given with
  | some (some obj), some attrName, some idx => exportModes obj attrName idx (valueOf .i "mode" (0 : Int32) given)
      (valueOf .i "row" (0 : Int32) given) (valueOf .i "col" (0 : Int32) given)
  | _, _, _ => []

/-- Those that `import_attribute` is to bind. -/
def importFor (given : String → Option (Value F (PyObject Obj))) : List (Request Obj) :=
  match (Param.converted ⟨.O,"component",true⟩ given).bind identifiedObject,
    Param.converted ⟨.s,"attribute",true⟩ given, Param.converted ⟨.i,"idx",true⟩ given with
  | some (some obj), some attrName, some idx => importModes obj attrName idx (valueOf .i "mode" (0 : Int32) given)
  | _, _, _ => []

/-- The keywords of both; all but `gain` decide about the interface that the call leaves. -/
def attributeKeywords (does : (String → Option (Value F (PyObject Obj))) → Interface) :
    List (Keyword F (PyObject Obj) (Locals F Obj × Interface)) :=
  [(Keyword.needed .O "component" (fun v => ∃ obj, identifiedObject v = some (some obj)) (·.1.pyObj)).acts
      does Prod.snd,
    (Keyword.needed .s "attribute" (fun _ => True) (·.1.attrName)).acts does Prod.snd,
    (Keyword.needed .i "idx" (fun _ => True) (·.1.idx)).acts does Prod.snd,
    (Keyword.optional .i "mode" (0 : Int32) (·.1.mode)).acts does Prod.snd,
    .optional .d "gain" Literals.one (·.1.gain)]

def exportKeywords (self : Interface) : List (Keyword F (PyObject Obj) (Locals F Obj × Interface)) :=
  let does given := (self.bindParts lib (exportFor given)).1
  attributeKeywords does ++ [(Keyword.optional .i "row" (0 : Int32) (·.1.row)).acts does Prod.snd,
    (Keyword.optional .i "col" (0 : Int32) (·.1.col)).acts does Prod.snd]

def importKeywords (self : Interface) : List (Keyword F (PyObject Obj) (Locals F Obj × Interface)) :=
  attributeKeywords fun given => { self with
    imports := self.imports ++ (importFor given).map fun (idx,p) => p.slot lib idx }

/-- What a call leaves that does not raise, with the variables that it has used. -/
def attributeCall (parsed : Option (Locals F Obj × Result)) (body : Locals F Obj → Option (Interface × Result)) :
    Option (Except Raised (Locals F Obj × Interface)) :=
  parsed.bind fun (f,raised) =>
    match raised with
    | some raised => some (.error raised)
    | none => (body f).map fun (self,result) =>
      match result with
      | some raised => .error raised
      | none => .ok (f,self)

def exportEntry (self : Interface) : Callable F (PyObject Obj) :=
  ⟨Locals F Obj × Interface,exportKeywords lib self,fun args kwargs =>
    attributeCall (exportParsed args kwargs) (exportBody lib self)⟩

/-- `mode` holds `held` before the call. -/
def importEntry (held : Int32) (self : Interface) : Callable F (PyObject Obj) :=
  ⟨Locals F Obj × Interface,importKeywords lib self,fun args kwargs =>
    attributeCall (importParsed args kwargs) (importBody lib held self)⟩

end Attributes
end Entries
end Interface

section Bound
variable {F O Frame : Type}

variable [Interpreter F O]

end Bound

namespace Simulation
variable {F Obj : Type} [Interpreter F (PyObject Obj)] [Literals F] [Div F] {info : Int32}
  {pySys : Option (Value F (PyObject Obj))}

theorem init_parsed {args : List (Value F (PyObject Obj))} {kwargs : List (String × Value F (PyObject Obj))}
    {f : InitLocals F Obj} (stored : storeAll initTargets
      (parseTupleAndKeywords initFormat initKwlist args kwargs).stored (initLocals info pySys) = some f)
    (raised : (parseTupleAndKeywords initFormat initKwlist args kwargs).raised = none) :
    pyInit info pySys args kwargs = initBody f := by
  unfold pyInit
  dsimp only
  rw [stored,raised]
  rfl

end Simulation

namespace Interface
variable {F Obj : Type} [Interpreter F (PyObject Obj)]

section Attributes
variable [Literals F]

/-- A call that does not raise is one of `export_attribute` that does not. -/
theorem attributeCall_addExport (lib : AttributeList Obj) (self self' : Interface)
    (args : List (Value F (PyObject Obj))) (kwargs : List (String × Value F (PyObject Obj))) :
    (∃ f, attributeCall (exportParsed args kwargs) (exportBody lib self) = some (.ok (f,self'))) ↔
      addExport lib self args kwargs = some (self',none) := by
  unfold attributeCall addExport
  cases (exportParsed args kwargs : Option (Locals F Obj × Result)) with
  | none => simp
  | some parsed =>
    obtain ⟨f,raised⟩ := parsed
    cases raised with
    | some raised => simp
    | none =>
      simp only [Option.bind_some]
      cases exportBody lib self f with
      | none => simp
      | some result =>
        obtain ⟨after,raised⟩ := result
        cases raised <;> simp

end Attributes
end Interface

/-- The entry points that parse keywords. -/
inductive EntryPoint where
  | simulationInit
  | addInterface
  | importAttribute
  | exportAttribute
  | interfaceInit
  deriving DecidableEq, Repr

namespace EntryPoint
variable {F Obj : Type} [Interpreter F (PyObject Obj)] [Literals F] [Div F]

/-- What the objects are before the call, and what the library knows about attributes. -/
structure Before (F Obj : Type) where
  lib : AttributeList Obj
  /-- the component library's `Level::INFO` -/
  info : Int32
  pySys : Option (Value F (PyObject Obj))
  conf : Interface.Config
  intf : Interface
  /-- what the memory of `mode` holds in `import_attribute` -/
  mode : Int32

def entry (b : Before F Obj) : EntryPoint → Callable F (PyObject Obj)
  | .simulationInit => Simulation.initEntry b.info b.pySys
  | .addInterface => Simulation.addEntry
  | .importAttribute => Interface.importEntry b.lib b.mode b.intf
  | .exportAttribute => Interface.exportEntry b.lib b.intf
  | .interfaceInit => Interface.initEntry b.conf

end EntryPoint

section Examples

def topology : Value ℚ (PyObject Nat) := .object (.systemTopology 0)

/-- What is passed by these keywords. -/
def passed (kwargs : List (String × Value ℚ (PyObject Nat))) (name : String) : Option (Value ℚ (PyObject Nat)) :=
  kwargs.lookup name

def fresh : EntryPoint.Before ℚ Nat :=
  ⟨Interface.oneLoad,2,none,⟨none,none,none,none,none⟩,Interface.empty,0⟩

end Examples
end DPsim.Python
