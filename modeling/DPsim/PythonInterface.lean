import DPsim.PythonArguments
import DPsim.SampleSlots

/-! The Python wrapper of an `Interface`: `export_attribute`, `import_attribute` and the list of
descriptions that tells the peer what is in a sample. `none` is undefined behaviour. -/
namespace DPsim.Python
open DPsim.Interface PyArg

/-- The Python objects that the bindings tell apart; `none` where the wrapped pointer is null. -/
inductive PyObject (Obj : Type) where
  | component (comp : Option Obj)
  | realNode (node : Option Obj)
  | complexNode (node : Option Obj)
  | systemTopology (address : Nat)
  | interface (address : Nat)
  | other
  deriving DecidableEq, Repr

/-- What is found under the name of an attribute: a pointer, a null pointer where the attribute has
another type, or an `InvalidAttributeException`. -/
inductive Lookup where
  | found (address : Nat)
  | nullptr
  | invalid
  deriving DecidableEq, Repr

def Lookup.map (f : Nat → Nat) : Lookup → Lookup
  | .found a => .found (f a)
  | .nullptr => .nullptr
  | .invalid => .invalid

@[simp] theorem Lookup.map_invalid {f : Nat → Nat} {look : Lookup} : look.map f = .invalid ↔ look = .invalid := by
  cases look <;> simp [Lookup.map]

def Lookup.pointer : Lookup → Option Nat
  | .found a => some a
  | _ => none

/-- The attributes of components and nodes: the component library's part. -/
structure AttributeList (Obj : Type) where
  name : Obj → String
  attributeOf : Kind → Obj → String → Lookup
  attributeComplex : Obj → String → Lookup
  attributeMatrix : Kind → Obj → String → Lookup
  coeff : Kind → Nat → Int32 → Int32 → Nat
  real : Nat → Nat
  imag : Nat → Nat
  mag : Nat → Nat
  phase : Nat → Nat

/-- The doubles that the source writes down. -/
class Literals (F : Type) where
  one : F
  milli : F
  dblMax : F

/-- An entry of `exports`. -/
structure Description where
  name : String
  type : String
  deriving DecidableEq, Repr

/-- The closures of the wrapped interface by the slots they are for; an empty dictionary of
`pyExports` is `none`. -/
structure Interface where
  exports : List Slot
  imports : List Slot
  pyExports : List (Option Description)
  deriving DecidableEq, Repr

/-- `None` or an exception. -/
abbrev Result := Option Raised

def raiseTypeError (message : String) : Result := some ⟨.typeError,some message⟩

/-- The object of a component or of a node. -/
def identifiedObject {F Obj : Type} : Value F (PyObject Obj) → Option (Option Obj)
  | .object (.component comp) => some comp
  | .object (.realNode node) => some node
  | .object (.complexNode node) => some node
  | _ => none

namespace Interface

/-- `PyList_SetItem` refuses an index outside the list: the exception stays set. -/
def addExportDesc (idx : Int32) (type name : String) (suffix : String)
    (pyExports : List (Option Description)) : List (Option Description) × Result :=
  let pyExports := pyExports ++ List.replicate ((idx + 1).toInt.toNat - pyExports.length) none
  if 0 ≤ idx.toInt ∧ idx.toInt.toNat < pyExports.length then
    (pyExports.set idx.toInt.toNat (some ⟨name ++ suffix,type⟩),none)
  else (pyExports,some Exc.indexError.raise)

/-- The arguments of a call of `addExportDesc`. -/
structure DescCall where
  idx : Int32
  type : String
  name : String
  suffix : String := ""

/-- The calls of `addExport` of a branch, then those of `addExportDesc`, then `Py_RETURN_NONE`, which
with an exception set is a `SystemError`. -/
def exportAll (self : Interface) (slots : List Slot) (descs : List DescCall) : Interface × Result :=
  let (pyExports,error) := descs.foldl (fun (pyExports,error) d =>
    let (pyExports,raised) := addExportDesc d.idx d.type d.name d.suffix pyExports
    (pyExports,raised <|> error)) (self.pyExports,none)
  ({ self with
    exports := self.exports ++ slots
    pyExports := pyExports },error.map fun _ => Exc.systemError.raise)

def importAll (self : Interface) (slots : List Slot) : Interface × Result :=
  ({ self with imports := self.imports ++ slots },none)

/-- The `try` around the branches: the look-up of an attribute, and what is done with the pointer. -/
def tryWith (message : String) (self : Interface) (lookup : Lookup)
    (branch : Option Nat → Option (Interface × Result)) : Option (Interface × Result) :=
  match lookup with
  | .invalid => some (self,raiseTypeError message)
  | .nullptr => branch none
  | .found a => branch (some a)

section Calls
variable {F Obj : Type} (lib : AttributeList Obj)

/-- The `switch` of `addExport`; a member of a null pointer is undefined behaviour. -/
def exportBranch (self : Interface) (obj : Obj) (attrName : String) (idx mode row col : Int32) :
    Option (Interface × Result) :=
  let name := lib.name obj ++ "." ++ attrName
  let coefficient := name ++ "(" ++ toString row.toInt ++ "," ++ toString col.toInt ++ ")"
  let tryRead := tryWith "First argument must be a readable attribute" self
  match mode.toInt with
  | 0 => tryRead (lib.attributeOf .real obj attrName) fun realAttr =>
      some (self.exportAll [⟨.real,realAttr,idx⟩] [⟨idx,"float",name,""⟩])
  | 1 => tryRead (lib.attributeOf .complex obj attrName) fun compAttr =>
      some (self.exportAll [⟨.complex,compAttr,idx⟩] [⟨idx,"complex",name,""⟩])
  | 2 => tryRead (lib.attributeComplex obj attrName) fun a => a.map fun a =>
      self.exportAll [⟨.real,some (lib.mag a),idx⟩,⟨.real,some (lib.phase a),idx + 1⟩]
        [⟨idx,"float",name ++ ".mag",""⟩,⟨idx + 1,"float",name ++ ".phase",""⟩]
  | 3 => tryRead (lib.attributeComplex obj attrName) fun a => a.map fun a =>
      self.exportAll [⟨.real,some (lib.real a),idx⟩] [⟨idx,"float",name,".real"⟩]
  | 4 => tryRead (lib.attributeComplex obj attrName) fun a => a.map fun a =>
      self.exportAll [⟨.real,some (lib.imag a),idx⟩] [⟨idx,"float",name ++ ".imag",""⟩]
  | 5 => tryRead (lib.attributeComplex obj attrName) fun a => a.map fun a =>
      self.exportAll [⟨.real,some (lib.phase a),idx⟩] [⟨idx,"float",name ++ ".phase",""⟩]
  | 6 => tryRead (lib.attributeComplex obj attrName) fun a => a.map fun a =>
      self.exportAll [⟨.real,some (lib.mag a),idx⟩] [⟨idx,"float",name ++ ".mag",""⟩]
  | 7 => tryRead (lib.attributeMatrix .real obj attrName) fun a => a.map fun a =>
      self.exportAll [⟨.real,some (lib.coeff .real a row col),idx⟩] [⟨idx,"float",coefficient,""⟩]
  | 8 => tryRead (lib.attributeMatrix .complex obj attrName) fun a => a.map fun a =>
      self.exportAll [⟨.complex,some (lib.coeff .complex a row col),idx⟩] [⟨idx,"complex",coefficient,""⟩]
  | 9 => tryRead (lib.attributeMatrix .complex obj attrName) fun a => a.map fun a =>
      let z := lib.coeff .complex a row col
      self.exportAll [⟨.real,some (lib.mag z),idx⟩,⟨.real,some (lib.phase z),idx + 1⟩]
        [⟨idx,"float",coefficient ++ ".mag",""⟩,⟨idx + 1,"float",coefficient ++ ".phase",""⟩]
  | _ => some (self,raiseTypeError "Invalid mode")

/-- The `switch` of `addImport`. -/
def importBranch (self : Interface) (obj : Obj) (attrName : String) (idx mode : Int32) :
    Option (Interface × Result) :=
  let tryWrite := tryWith "First argument must be a writable attribute" self
  match mode.toInt with
  | 0 => tryWrite (lib.attributeOf .real obj attrName) fun a => some (self.importAll [⟨.real,a,idx⟩])
  | 2 => tryWrite (lib.attributeComplex obj attrName) fun a => a.map fun a =>
      self.importAll [⟨.real,some (lib.mag a),idx⟩,⟨.real,some (lib.phase a),idx + 1⟩]
  | 3 => tryWrite (lib.attributeComplex obj attrName) fun a => a.map fun a =>
      self.importAll [⟨.real,some (lib.real a),idx⟩]
  | 4 => tryWrite (lib.attributeComplex obj attrName) fun a => a.map fun a =>
      self.importAll [⟨.real,some (lib.imag a),idx⟩]
  | 5 => tryWrite (lib.attributeComplex obj attrName) fun a => a.map fun a =>
      self.importAll [⟨.real,some (lib.phase a),idx⟩]
  | 6 => tryWrite (lib.attributeComplex obj attrName) fun a => a.map fun a =>
      self.importAll [⟨.real,some (lib.mag a),idx⟩]
  | _ => some (self,raiseTypeError "Invalid mode")

/-- The local variables of `addExport` and `addImport`; `none` is not assigned yet. -/
@[ext]
structure Locals (F Obj : Type) where
  pyObj : Option (Value F (PyObject Obj))
  attrName : Option String
  idx : Option Int32
  gain : Option F
  mode : Option Int32
  row : Option Int32
  col : Option Int32

namespace Locals

def pyObjVar : Variable (Locals F Obj) (Option (Value F (PyObject Obj))) :=
  ⟨fun m f => { f with pyObj := m f.pyObj },fun _ => rfl⟩
def attrNameVar : Variable (Locals F Obj) (Option String) :=
  ⟨fun m f => { f with attrName := m f.attrName },fun _ => rfl⟩
def idxVar : Variable (Locals F Obj) (Option Int32) := ⟨fun m f => { f with idx := m f.idx },fun _ => rfl⟩
def gainVar : Variable (Locals F Obj) (Option F) := ⟨fun m f => { f with gain := m f.gain },fun _ => rfl⟩
def modeVar : Variable (Locals F Obj) (Option Int32) := ⟨fun m f => { f with mode := m f.mode },fun _ => rfl⟩
def rowVar : Variable (Locals F Obj) (Option Int32) := ⟨fun m f => { f with row := m f.row },fun _ => rfl⟩
def colVar : Variable (Locals F Obj) (Option Int32) := ⟨fun m f => { f with col := m f.col },fun _ => rfl⟩

end Locals

section Export
variable [Interpreter F (PyObject Obj)] [Literals F]

def exportLocals : Locals F Obj := ⟨none,none,none,some Literals.one,some 0,some 0,some 0⟩

def exportKwlist : List String := ["component","attribute","idx","mode","gain","row","col"]

/-- `"Osi|idii"`. -/
def exportFormat : Format := ⟨[.O,.s,.i],[.i,.d,.i,.i]⟩

def exportTargets : List (Target F (PyObject Obj) (Locals F Obj)) :=
  [.pyObject Locals.pyObjVar,.charPtr Locals.attrNameVar,.int Locals.idxVar,.int Locals.modeVar,
    .double Locals.gainVar,.int Locals.rowVar,.int Locals.colVar]

/-- The variables of `addExport` when its arguments have been parsed, and the exception of the parser. -/
def exportParsed (args : List (Value F (PyObject Obj))) (kwargs : List (String × Value F (PyObject Obj))) :
    Option (Locals F Obj × Result) :=
  let parsed := parseTupleAndKeywords exportFormat exportKwlist args kwargs
  (storeAll exportTargets parsed.stored exportLocals).map (·,parsed.raised)

/-- `addExport` behind its parser. `obj->name()` dereferences the pointer of the object. -/
def exportBody (self : Interface) (f : Locals F Obj) : Option (Interface × Result) :=
  match f.pyObj, f.attrName, f.idx, f.mode, f.row, f.col with
  | some pyObj, some attrName, some idx, some mode, some row, some col =>
    match identifiedObject pyObj with
    | none => some (self,raiseTypeError "First argument must be a Component or a Node")
    | some none => none
    | some (some obj) => exportBranch lib self obj attrName idx mode row col
  | _, _, _, _, _, _ => none

def addExport (self : Interface) (args : List (Value F (PyObject Obj)))
    (kwargs : List (String × Value F (PyObject Obj))) : Option (Interface × Result) :=
  (exportParsed args kwargs).bind fun (f,raised) =>
    match raised with
    | some raised => some (self,some raised)
    | none => exportBody lib self f

end Export

section Import
variable [Interpreter F (PyObject Obj)]

def importLocals : Locals F Obj := ⟨none,none,none,none,none,none,none⟩

def importKwlist : List String := ["component","attribute","idx","mode","gain"]

/-- `"Osi|ds"`. -/
def importFormat : Format := ⟨[.O,.s,.i],[.d,.s]⟩

def importTargets : List (Target F (PyObject Obj) (Locals F Obj)) :=
  [.pyObject Locals.pyObjVar,.charPtr Locals.attrNameVar,.int Locals.idxVar,.double Locals.gainVar,
    .int Locals.modeVar]

/-- The method is registered without `METH_KEYWORDS`: the interpreter refuses keywords and passes no
dictionary. (The third parameter of the function is then undefined; here it is null.) -/
def importParsed (args : List (Value F (PyObject Obj))) (kwargs : List (String × Value F (PyObject Obj))) :
    Option (Locals F Obj × Result) :=
  if kwargs ≠ [] then some (importLocals,some Exc.typeError.raise)
  else
    let parsed := parseTupleAndKeywords importFormat importKwlist args []
    (storeAll importTargets parsed.stored importLocals).map (·,parsed.raised)

/-- `addImport` behind its parser; the `switch` finds `held` in a `mode` that is not assigned. -/
def importBody (held : Int32) (self : Interface) (f : Locals F Obj) : Option (Interface × Result) :=
  match f.pyObj, f.attrName, f.idx with
  | some pyObj, some attrName, some idx =>
    match identifiedObject pyObj with
    | none => some (self,raiseTypeError "First argument must be a Component or a Node")
    | some none => none
    | some (some obj) => importBranch lib self obj attrName idx (f.mode.getD held)
  | _, _, _ => none

def addImport (held : Int32) (self : Interface) (args : List (Value F (PyObject Obj)))
    (kwargs : List (String × Value F (PyObject Obj))) : Option (Interface × Result) :=
  (importParsed args kwargs).bind fun (f,raised) =>
    match raised with
    | some raised => some (self,some raised)
    | none => importBody lib held self f

end Import
end Calls

/-- What is looked at of an attribute or of a coefficient. -/
inductive View where
  | whole
  | real
  | imag
  | mag
  | phase
  deriving DecidableEq, Repr

/-- A part of an attribute that a slot of the sample can be for. -/
structure Part (Obj : Type) where
  obj : Obj
  attrName : String
  coeff : Option (Int32 × Int32)
  view : View
  kind : Kind
  deriving DecidableEq, Repr

section Parts
variable {Obj : Type} (lib : AttributeList Obj)

def viewOf : View → Nat → Nat
  | .whole => id
  | .real => lib.real
  | .imag => lib.imag
  | .mag => lib.mag
  | .phase => lib.phase

def viewName : View → String
  | .whole => ""
  | .real => ".real"
  | .imag => ".imag"
  | .mag => ".mag"
  | .phase => ".phase"

/-- The text by which the peer knows the part. -/
def Part.text (p : Part Obj) : String :=
  let name := lib.name p.obj ++ "." ++ p.attrName
  match p.coeff with
  | none => name ++ viewName p.view
  | some (row,col) => name ++ "(" ++ toString row.toInt ++ "," ++ toString col.toInt ++ ")" ++ viewName p.view

def Part.description (p : Part Obj) : Description :=
  ⟨p.text lib,if p.kind = .complex then "complex" else "float"⟩

/-- The attribute that holds the part. A part of a complex number is part of a complex attribute. -/
def Part.lookup (p : Part Obj) : Lookup :=
  match p.coeff, p.view with
  | none, .whole => lib.attributeOf p.kind p.obj p.attrName
  | none, view => (lib.attributeComplex p.obj p.attrName).map (viewOf lib view)
  | some (row,col), .whole => (lib.attributeMatrix p.kind p.obj p.attrName).map (lib.coeff p.kind · row col)
  | some (row,col), view => (lib.attributeMatrix .complex p.obj p.attrName).map
      fun a => viewOf lib view (lib.coeff .complex a row col)

/-- The pointer of the attribute is passed on as it is: nothing dereferences it in the call. -/
def Part.Direct (p : Part Obj) : Prop := p.coeff = none ∧ p.view = .whole

instance (p : Part Obj) : Decidable p.Direct := inferInstanceAs (Decidable (_ ∧ _))

def Part.slot (p : Part Obj) (idx : Int32) : Slot := ⟨p.kind,(p.lookup lib).pointer,idx⟩

/-- A part and the index it is for. -/
abbrev Request (Obj : Type) := Int32 × Part Obj

/-- The modes of `export_attribute`. -/
def exportModes (obj : Obj) (attrName : String) (idx mode row col : Int32) : List (Request Obj) :=
  let part := Part.mk obj attrName none
  let coefficient := Part.mk obj attrName (some (row,col))
  match mode.toInt with
  | 0 => [(idx,part .whole .real)]
  | 1 => [(idx,part .whole .complex)]
  | 2 => [(idx,part .mag .real),(idx + 1,part .phase .real)]
  | 3 => [(idx,part .real .real)]
  | 4 => [(idx,part .imag .real)]
  | 5 => [(idx,part .phase .real)]
  | 6 => [(idx,part .mag .real)]
  | 7 => [(idx,coefficient .whole .real)]
  | 8 => [(idx,coefficient .whole .complex)]
  | 9 => [(idx,coefficient .mag .real),(idx + 1,coefficient .phase .real)]
  | _ => []

/-- The modes of `import_attribute`. -/
def importModes (obj : Obj) (attrName : String) (idx mode : Int32) : List (Request Obj) :=
  let part := Part.mk obj attrName none
  match mode.toInt with
  | 0 => [(idx,part .whole .real)]
  | 2 => [(idx,part .mag .real),(idx + 1,part .phase .real)]
  | 3 => [(idx,part .real .real)]
  | 4 => [(idx,part .imag .real)]
  | 5 => [(idx,part .phase .real)]
  | 6 => [(idx,part .mag .real)]
  | _ => []

/-- The slots and the descriptions of these parts. -/
def bindParts (self : Interface) (parts : List (Request Obj)) : Interface × Result :=
  self.exportAll (parts.map fun (idx,p) => p.slot lib idx)
    (parts.map fun (idx,p) => ⟨idx,(p.description lib).type,(p.description lib).name,""⟩)

/-- What becomes of the parts of one call, which are all of one attribute. -/
def bindOrRaise (message : String) (self : Interface) (bind : List (Request Obj) → Interface × Result) :
    List (Request Obj) → Option (Interface × Result)
  | [] => some (self,raiseTypeError "Invalid mode")
  | (idx,p) :: parts =>
    match p.lookup lib with
    | .invalid => some (self,raiseTypeError message)
    | .nullptr => if p.Direct then some (bind ((idx,p) :: parts)) else none
    | .found _ => some (bind ((idx,p) :: parts))

/-- Only the text that is put together matters for a description. -/
theorem exportAll_congr (self : Interface) (slots : List Slot) {descs descs' : List DescCall}
    (same : descs.map (fun d => (d.idx,d.type,d.name ++ d.suffix)) =
      descs'.map (fun d => (d.idx,d.type,d.name ++ d.suffix))) :
    self.exportAll slots descs = self.exportAll slots descs' := by
  have folded (start : List (Option Description) × Result) :
      ∀ descs : List DescCall, descs.foldl (fun (pyExports,error) d =>
          ((addExportDesc d.idx d.type d.name d.suffix pyExports).1,
            (addExportDesc d.idx d.type d.name d.suffix pyExports).2 <|> error)) start =
        (descs.map fun d => (d.idx,d.type,d.name ++ d.suffix)).foldl (fun (pyExports,error) (idx,type,name) =>
          ((addExportDesc idx type name "" pyExports).1,(addExportDesc idx type name "" pyExports).2 <|> error))
          start := by
    intro descs
    rw [List.foldl_map]
    simp only [addExportDesc,String.append_empty]
  simp only [exportAll,folded,same]

theorem exportBranch_eq (self : Interface) (obj : Obj) (attrName : String) (idx mode row col : Int32) :
    exportBranch lib self obj attrName idx mode row col =
      bindOrRaise lib "First argument must be a readable attribute" self (self.bindParts lib)
        (exportModes obj attrName idx mode row col) := by
  unfold exportBranch exportModes
  dsimp only
  split
  case h_11 => rfl
  case h_1 =>
    cases look : lib.attributeOf .real obj attrName <;>
      simp [tryWith,bindOrRaise,Part.lookup,look,Part.Direct,bindParts,Part.slot,Lookup.pointer,Part.description,
        Part.text,viewName]
  case h_2 =>
    cases look : lib.attributeOf .complex obj attrName <;>
      simp [tryWith,bindOrRaise,Part.lookup,look,Part.Direct,bindParts,Part.slot,Lookup.pointer,Part.description,
        Part.text,viewName]
  case h_8 =>
    cases look : lib.attributeMatrix .real obj attrName <;>
      simp [tryWith,bindOrRaise,Part.lookup,look,Part.Direct,bindParts,Part.slot,Lookup.pointer,Part.description,
        Part.text,viewName,Lookup.map]
  case h_9 =>
    cases look : lib.attributeMatrix .complex obj attrName <;>
      simp [tryWith,bindOrRaise,Part.lookup,look,Part.Direct,bindParts,Part.slot,Lookup.pointer,Part.description,
        Part.text,viewName,Lookup.map]
  case h_10 =>
    cases look : lib.attributeMatrix .complex obj attrName <;>
      simp [tryWith,bindOrRaise,Part.lookup,look,Part.Direct,bindParts,Part.slot,Lookup.pointer,Part.description,
        Part.text,viewName,viewOf,Lookup.map]
  all_goals
    cases look : lib.attributeComplex obj attrName <;>
      simp [tryWith,bindOrRaise,Part.lookup,look,Part.Direct,bindParts,Part.slot,Lookup.pointer,Part.description,
        Part.text,viewName,viewOf,Lookup.map]
  all_goals
    apply exportAll_congr
    simp

/-- What `addExportDesc` makes of the list for these parts. -/
def described (pyExports : List (Option Description)) (parts : List (Request Obj)) : List (Option Description) :=
  parts.foldl (fun pyExports (idx,p) =>
    (addExportDesc idx (p.description lib).type (p.description lib).name "" pyExports).1) pyExports

theorem bindParts_fst (self : Interface) (parts : List (Request Obj)) :
    (self.bindParts lib parts).1 = { self with
      exports := self.exports ++ parts.map fun (idx,p) => p.slot lib idx
      pyExports := described lib self.pyExports parts } := by
  have folded (start : List (Option Description) × Result) :
      (parts.foldl (fun state (r : Request Obj) =>
        ((addExportDesc r.1 (r.2.description lib).type (r.2.description lib).name "" state.1).1,
          (addExportDesc r.1 (r.2.description lib).type (r.2.description lib).name "" state.1).2 <|> state.2))
        start).1 = described lib start.1 parts := by
    induction parts generalizing start with
    | nil => rfl
    | cons r parts ih => exact ih _
  simp only [bindParts,exportAll,List.foldl_map,folded]

/-- The parts of an attribute that exists. -/
def found : List (Request Obj) → List (Request Obj)
  | [] => []
  | (idx,p) :: parts => if p.lookup lib = .invalid then [] else (idx,p) :: parts

theorem bindOrRaise_found {message : String} {self self' : Interface} (bind : List (Request Obj) → Interface × Result)
    (empty : (bind []).1 = self) {parts : List (Request Obj)} {result : Result}
    (ran : bindOrRaise lib message self bind parts = some (self',result)) :
    self' = (bind (found lib parts)).1 := by
  cases parts with
  | nil =>
    cases ran
    exact empty.symm
  | cons r parts =>
    obtain ⟨idx,p⟩ := r
    cases look : p.lookup lib with
    | invalid =>
      simp only [bindOrRaise,look,Option.some.injEq] at ran
      simp only [found,look,if_true,empty]
      exact congrArg Prod.fst ran.symm
    | nullptr =>
      simp only [bindOrRaise,look] at ran
      simp only [found,look,reduceCtorEq,if_false]
      split at ran
      · exact congrArg Prod.fst (Option.some.inj ran).symm
      · contradiction
    | found a =>
      simp only [bindOrRaise,look,Option.some.injEq] at ran
      simp only [found,look,reduceCtorEq,if_false]
      exact congrArg Prod.fst ran.symm

end Parts

/-- The arguments of a call. -/
structure Call (F Obj : Type) where
  args : List (Value F (PyObject Obj))
  kwargs : List (String × Value F (PyObject Obj))

section Asked
variable {F Obj : Type} [Interpreter F (PyObject Obj)] (lib : AttributeList Obj)

def exportBodyAsked (f : Locals F Obj) : List (Request Obj) :=
  match f.pyObj, f.attrName, f.idx, f.mode, f.row, f.col with
  | some pyObj, some attrName, some idx, some mode, some row, some col =>
    match identifiedObject pyObj with
    | some (some obj) => found lib (exportModes obj attrName idx mode row col)
    | _ => []
  | _, _, _, _, _, _ => []

/-- The parts that a call of `export_attribute` binds. -/
def exportAsked [Literals F] (c : Call F Obj) : List (Request Obj) :=
  match exportParsed c.args c.kwargs with
  | some (f,none) => exportBodyAsked lib f
  | _ => []

def importBodyAsked (held : Int32) (f : Locals F Obj) : List (Request Obj) :=
  match f.pyObj, f.attrName, f.idx with
  | some pyObj, some attrName, some idx =>
    match identifiedObject pyObj with
    | some (some obj) => found lib (importModes obj attrName idx (f.mode.getD held))
    | _ => []
  | _, _, _ => []

/-- The parts that a call of `import_attribute` binds. -/
def importAsked (held : Int32) (c : Call F Obj) : List (Request Obj) :=
  match importParsed c.args c.kwargs with
  | some (f,none) => importBodyAsked lib held f
  | _ => []

theorem addExport_asked [Literals F] {self self' : Interface} {c : Call F Obj} {result : Result}
    (ran : addExport lib self c.args c.kwargs = some (self',result)) :
    self' = (self.bindParts lib (exportAsked lib c)).1 := by
  have empty : (self.bindParts lib []).1 = self := by simp [bindParts_fst,described]
  obtain ⟨⟨f,raised⟩,parsed,rest⟩ := Option.bind_eq_some_iff.mp ran
  rw [exportAsked,parsed]
  cases raised with
  | some raised =>
    cases rest
    exact empty.symm
  | none =>
    simp only [exportBody] at rest
    simp only [exportBodyAsked]
    split at rest
    · split at rest
      · rename_i object
        cases rest
        simp only [*]
      · contradiction
      · rename_i object
        rw [exportBranch_eq] at rest
        simp only [*]
        exact bindOrRaise_found lib _ empty rest
    · contradiction

theorem importBranch_eq (self : Interface) (obj : Obj) (attrName : String) (idx mode : Int32) :
    importBranch lib self obj attrName idx mode =
      bindOrRaise lib "First argument must be a writable attribute" self
        (fun parts => self.importAll (parts.map fun (idx,p) => p.slot lib idx))
        (importModes obj attrName idx mode) := by
  unfold importBranch importModes
  dsimp only
  split
  case h_7 => rfl
  case h_1 =>
    cases look : lib.attributeOf .real obj attrName <;>
      simp [tryWith,bindOrRaise,Part.lookup,look,Part.Direct,Part.slot,Lookup.pointer]
  all_goals
    cases look : lib.attributeComplex obj attrName <;>
      simp [tryWith,bindOrRaise,Part.lookup,look,Part.Direct,Part.slot,Lookup.pointer,viewOf,Lookup.map]

theorem addImport_asked {held : Int32} {self self' : Interface} {c : Call F Obj} {result : Result}
    (ran : addImport lib held self c.args c.kwargs = some (self',result)) :
    self' = { self with
      imports := self.imports ++ (importAsked lib held c).map fun (idx,p) => p.slot lib idx } := by
  have empty : (self.importAll []).1 = self := by simp [importAll]
  obtain ⟨⟨f,raised⟩,parsed,rest⟩ := Option.bind_eq_some_iff.mp ran
  rw [importAsked,parsed]
  cases raised with
  | some raised =>
    cases rest
    exact empty.symm
  | none =>
    simp only [importBody] at rest
    simp only [importBodyAsked]
    split at rest
    · split at rest
      · rename_i object
        cases rest
        simp [*]
      · contradiction
      · rename_i object
        rw [importBranch_eq] at rest
        simp only [*]
        exact bindOrRaise_found lib (fun parts => self.importAll (parts.map fun (idx,p) => p.slot lib idx))
          empty rest
    · contradiction

end Asked
end Interface
end DPsim.Python
