import DPsim.PythonInterface
import Mathlib.Data.Rat.Defs

/-! Where the closures of an interface access a sample, for every index that is registered from C++
or from Python. -/
namespace DPsim.Python.Interface
open DPsim.Interface PyArg

variable {S Real F Obj : Type}

/-- A call that registers closures; `mode` of `import_attribute` may hold anything. -/
inductive Registration (F Obj : Type) where
  | addImport (slot : Slot)
  | addExport (slot : Slot)
  | importAttribute (held : Int32) (call : Call F Obj)
  | exportAttribute (call : Call F Obj)

section Register
variable [Interpreter F (PyObject Obj)] [Literals F] (lib : AttributeList Obj)

def Registration.apply (self : Interface) : Registration F Obj → Option Interface
  | .addImport slot => some { self with imports := self.imports ++ [slot] }
  | .addExport slot => some { self with exports := self.exports ++ [slot] }
  | .importAttribute held call => (Interface.addImport lib held self call.args call.kwargs).map Prod.fst
  | .exportAttribute call => (Interface.addExport lib self call.args call.kwargs).map Prod.fst

def empty : Interface := ⟨[],[],[]⟩

def registerAll (regs : List (Registration F Obj)) (self : Interface) : Option Interface :=
  regs.foldlM (fun self reg => reg.apply lib self) self

/-- The slots that a registration is for. -/
def Registration.exports : Registration F Obj → List Slot
  | .addExport slot => [slot]
  | .exportAttribute call => (exportAsked lib call).map fun (idx,p) => p.slot lib idx
  | _ => []

def Registration.imports : Registration F Obj → List Slot
  | .addImport slot => [slot]
  | .importAttribute held call => (importAsked lib held call).map fun (idx,p) => p.slot lib idx
  | _ => []

theorem apply_slots {reg : Registration F Obj} {self self' : Interface} (ran : reg.apply lib self = some self') :
    self'.exports = self.exports ++ reg.exports lib ∧ self'.imports = self.imports ++ reg.imports lib := by
  cases reg with
  | addImport slot =>
    obtain rfl := Option.some.inj ran
    simp [Registration.exports,Registration.imports]
  | addExport slot =>
    obtain rfl := Option.some.inj ran
    simp [Registration.exports,Registration.imports]
  | importAttribute held call =>
    obtain ⟨⟨self'',result⟩,added,rfl⟩ := Option.map_eq_some_iff.mp ran
    obtain rfl := addImport_asked lib added
    simp [Registration.exports,Registration.imports]
  | exportAttribute call =>
    obtain ⟨⟨self'',result⟩,added,rfl⟩ := Option.map_eq_some_iff.mp ran
    obtain rfl := addExport_asked lib added
    simp [Registration.exports,Registration.imports,bindParts_fst]

theorem registerAll_slots {regs : List (Registration F Obj)} {self self' : Interface}
    (ran : registerAll lib regs self = some self') :
    self'.exports = self.exports ++ regs.flatMap (fun reg => reg.exports lib) ∧
      self'.imports = self.imports ++ regs.flatMap (fun reg => reg.imports lib) := by
  induction regs generalizing self with
  | nil =>
    obtain rfl := Option.some.inj ran
    simp
  | cons reg regs ih =>
    obtain ⟨next,first,rest⟩ := Option.bind_eq_some_iff.mp ran
    obtain ⟨exports,imports⟩ := apply_slots lib first
    obtain ⟨exports',imports'⟩ := ih rest
    simp [exports,imports,exports',imports']

end Register

section Runs
variable (T : SampleType S Real) (access : AttributeAccess Real)

/-- The export closures that a call of `writeValues` runs, with the sample that each one finds. -/
def exportSteps (values : Attributes Real) : List Slot → Sample S → List (Slot × Sample S)
  | [], _ => []
  | slot :: slots, smp => (slot,smp) ::
    match (exportRun T access slot values smp).ended with
    | .returned => exportSteps values slots (exportRun T access slot values smp).smp
    | _ => []

/-- Each closure is safe on the sample, and so is each export on what the ones before it leave. -/
structure SlotsSafe (intf : Interface) (values : Attributes Real) (smp : Sample S) : Prop where
  exports : ∀ slot ∈ intf.exports, SlotSafe slot.idx smp (exportRun T access slot values smp)
  imports : ∀ slot ∈ intf.imports, SlotSafe slot.idx smp (importRun T access slot smp values)
  steps : ∀ p ∈ exportSteps T access values intf.exports smp,
    SlotSafe p.1.idx p.2 (exportRun T access p.1 values p.2)

variable {T access}

theorem exportSteps_sized {values : Attributes Real} {slots : List Slot} {smp : Sample S}
    (positive : ∀ slot ∈ slots, 0 ≤ slot.idx.toInt) (sized : smp.length ≤ smp.capacity) :
    ∀ p ∈ exportSteps T access values slots smp, p.1 ∈ slots ∧ p.2.capacity = smp.capacity := by
  induction slots generalizing smp with
  | nil => nofun
  | cons slot slots ih =>
    obtain ⟨later,same⟩ := export_sized (T := T) values (positive slot List.mem_cons_self) sized
    rintro p (_ | ⟨_,rest⟩)
    · exact ⟨List.mem_cons_self,rfl⟩
    · split at rest
      · obtain ⟨member,capacity⟩ := ih (fun s member => positive s (List.mem_cons_of_mem slot member)) later p rest
        exact ⟨List.mem_cons_of_mem slot member,capacity.trans same⟩
      · contradiction

/-- The sample is only accessed in bounds if and only if no index is negative and every attribute
that is exported to a slot of the sample can be read. -/
theorem slots_safe_iff [Interpreter F (PyObject Obj)] [Literals F] (lib : AttributeList Obj)
    (regs : List (Registration F Obj)) (self : Interface) (ran : registerAll lib regs empty = some self)
    (signed : T.signed = true) (values : Attributes Real) (smp : Sample S) (sized : smp.length ≤ smp.capacity) :
    SlotsSafe T access self values smp ↔ ∀ reg ∈ regs,
      (∀ slot ∈ reg.exports lib, 0 ≤ slot.idx.toInt ∧
        (slot.idx.toInt < smp.capacity → ∃ value, slot.get access values = .ok value)) ∧
      ∀ slot ∈ reg.imports lib, 0 ≤ slot.idx.toInt := by
  obtain ⟨exports,imports⟩ := registerAll_slots lib ran
  replace exports : self.exports = regs.flatMap fun reg => reg.exports lib := exports
  replace imports : self.imports = regs.flatMap fun reg => reg.imports lib := imports
  constructor
  · intro safe reg member
    constructor
    · intro slot bound
      apply (export_safe_iff signed slot values smp).mp
      apply safe.exports
      rw [exports]
      exact List.mem_flatMap.mpr ⟨reg,member,bound⟩
    · intro slot bound
      apply (import_safe_iff signed slot values sized).mp
      apply safe.imports
      rw [imports]
      exact List.mem_flatMap.mpr ⟨reg,member,bound⟩
  · intro fine
    have readable : ∀ slot ∈ self.exports, 0 ≤ slot.idx.toInt ∧
        (slot.idx.toInt < smp.capacity → ∃ value, slot.get access values = .ok value) := by
      intro slot bound
      rw [exports] at bound
      obtain ⟨reg,member,here⟩ := List.mem_flatMap.mp bound
      exact (fine reg member).1 slot here
    refine ⟨fun slot bound => ?_,fun slot bound => ?_,fun p step => ?_⟩
    · exact (export_safe_iff signed slot values smp).mpr (readable slot bound)
    · rw [imports] at bound
      obtain ⟨reg,member,here⟩ := List.mem_flatMap.mp bound
      exact (import_safe_iff signed slot values sized).mpr ((fine reg member).2 slot here)
    · obtain ⟨bound,capacity⟩ := exportSteps_sized (fun slot bound => (readable slot bound).1) sized p step
      apply (export_safe_iff signed p.1 values p.2).mpr
      rw [capacity]
      exact readable p.1 bound

end Runs

section Examples

/-- Slots of two words in a sample whose counts are ints. -/
def intWords : SampleType (UInt32 × UInt32) Int := { words with signed := true }

/-- A sample for 64 values that is empty. -/
def emptySample : Sample (UInt32 × UInt32) := ⟨0,0,64,fun _ => (0,0)⟩

/-- Doubles that are rational numbers. -/
instance : Interpreter ℚ (PyObject Nat) := ⟨fun n => some n,fun x => decide (x ≠ 0),fun _ => true⟩

instance : Literals ℚ := ⟨1,1 / 1000,2 ^ 1024⟩

/-- One component with a real and a complex attribute. -/
def oneLoad : AttributeList Nat where
  name _ := "load"
  attributeOf
    | .real, _, "p" => .found 1
    | .complex, _, "v" => .found 2
    | _, _, "p" => .nullptr
    | _, _, "v" => .nullptr
    | _, _, _ => .invalid
  attributeComplex _
    | "v" => .found 2
    | "p" => .nullptr
    | _ => .invalid
  attributeMatrix _ _
    | "p" => .nullptr
    | "v" => .nullptr
    | _ => .invalid
  coeff _ a _ _ := a
  real := (4 * ·)
  imag := (4 * · + 1)
  mag := (4 * · + 2)
  phase := (4 * · + 3)

def load : Value ℚ (PyObject Nat) := .object (.component (some 0))

/-- `import_attribute(load, "p", 63)` where `mode` happens to hold 0, then
`export_attribute(load, "v", 0, mode=2)`. -/
def twoCalls : List (Registration ℚ Nat) :=
  [.importAttribute 0 ⟨[load,.str "p",.int 63],[]⟩,.exportAttribute ⟨[load,.str "v",.int 0],[("mode",.int 2)]⟩]

theorem slots_safe_iff_twoCalls :
    SlotsSafe intWords .plain ⟨[⟨.real,some 10,0⟩,⟨.real,some 11,1⟩],[⟨.real,some 1,63⟩],
      [some ⟨"load.v.mag","float"⟩,some ⟨"load.v.phase","float"⟩]⟩ zeros emptySample := by
  apply (slots_safe_iff oneLoad twoCalls _ rfl rfl zeros emptySample (by decide)).mpr
  rintro reg (_ | ⟨_,_ | ⟨_,_ | _⟩⟩)
  · refine ⟨nofun,fun slot bound => ?_⟩
    change slot ∈ [Slot.mk .real (some 1) 63] at bound
    obtain rfl := List.mem_singleton.mp bound
    decide
  · refine ⟨fun slot bound => ?_,nofun⟩
    change slot ∈ [Slot.mk .real (some 10) 0,Slot.mk .real (some 11) 1] at bound
    rcases List.mem_pair.mp bound with rfl | rfl
    all_goals exact ⟨by decide,fun _ => ⟨_,rfl⟩⟩

/-- An index of -1 passes both checks, and the slot before the first one is accessed. -/
theorem negative_index_accessed :
    let regs : List (Registration ℚ Nat) := [.addExport ⟨.int,some 0,-1⟩,.addImport ⟨.int,some 0,-1⟩]
    registerAll oneLoad regs empty = some ⟨[⟨.int,some 0,-1⟩],[⟨.int,some 0,-1⟩],[]⟩ ∧
      (exportRun intWords .plain ⟨.int,some 0,-1⟩ zeros emptySample).indices = [-1] ∧
      (importRun intWords .plain ⟨.int,some 0,-1⟩ emptySample zeros).indices = [-1] ∧
      ¬ SlotsSafe intWords .plain ⟨[⟨.int,some 0,-1⟩],[⟨.int,some 0,-1⟩],[]⟩ zeros emptySample := by
  refine ⟨rfl,by decide,by decide,fun safe => ?_⟩
  have inside := (safe.exports ⟨.int,some 0,-1⟩ List.mem_cons_self).inside (-1) (by decide)
  exact absurd inside.1 (by decide)

end Examples
end DPsim.Python.Interface
