import DPsim.Definitions
import DPsim.Updates
import Mathlib.Data.Int.Basic

/-! The imports and exports of an `Interface` and the samples they work on. The type of a sample
belongs to the shared memory library: `SampleType` is what the closures use of it. -/
namespace DPsim.Interface
open Updates

/-- The types that the overloads of `addImport` and `addExport` take. -/
inductive Kind where
  | int
  | real
  | bool
  | complex
  deriving DecidableEq, Repr

/-- A `Complex` is its two parts. -/
abbrev Kind.Value (Real : Type) : Kind → Type
  | .int => Int32
  | .real => Real
  | .bool => Bool
  | .complex => Real × Real

/-- A typed pointer to an attribute. -/
structure Attribute where
  kind : Kind
  address : Nat
  deriving DecidableEq, Repr

/-- The values that the attributes have. -/
abbrev Attributes (Real : Type) := (attr : Attribute) → attr.kind.Value Real

/-- `Attribute::get` and `Attribute::set` of the component library, which throw for an attribute that may
not be read or written. -/
structure AttributeAccess (Real : Type) where
  get : Attributes Real → (attr : Attribute) → Except Fault (attr.kind.Value Real)
  set : Attributes Real → (attr : Attribute) → attr.kind.Value Real → Except Fault (Attributes Real)

section AttributeAccess
variable {Real : Type}

/-- Attributes that can all be read, and written if they are not read-only. -/
def AttributeAccess.guarded (readOnly : Attribute → Bool) : AttributeAccess Real :=
  ⟨fun values attr => .ok (values attr),fun values attr value =>
    if readOnly attr then .error (.exception "AccessException") else .ok (Function.update values attr value)⟩

/-- Attributes that can all be read and written. -/
def AttributeAccess.plain : AttributeAccess Real :=
  ⟨fun values attr => .ok (values attr),fun values attr value => .ok (Function.update values attr value)⟩

end AttributeAccess

structure Sample (S : Type) where
  sequence : Int32
  length : Nat
  capacity : Nat
  data : Int32 → S

/-- The union that a slot is, and whether `length` and `capacity` are of a signed type. -/
structure SampleType (S Real : Type) where
  signed : Bool
  store : (kind : Kind) → kind.Value Real → S → S
  load : (kind : Kind) → S → kind.Value Real

/-- An attribute and the index it is bound to. -/
structure Binding where
  attr : Attribute
  idx : Int32
  deriving DecidableEq, Repr

/-- The lists of closures. An import that throws has set nothing; the sample of an export that throws is
not written. -/
structure Closures (S Real : Type) where
  mExports : List (Attributes Real → Sample S → Except Fault (Sample S))
  mImports : List (Sample S → Attributes Real → Except Fault (Attributes Real))

section Closures
variable {S Real : Type} (T : SampleType S Real) (access : AttributeAccess Real)

/-- `idx >= n` for one of the two counts of a sample. -/
def SampleType.beyond (idx : Int32) (n : Nat) : Bool :=
  if T.signed then decide ((n : Int) ≤ idx.toInt) else decide (n ≤ idx.toUInt32.toNat)

/-- The closure of an `addImport`. -/
def imported (b : Binding) (smp : Sample S) (values : Attributes Real) : Except Fault (Attributes Real) :=
  if T.beyond b.idx smp.length then .error (.exception "incomplete data received from interface")
  else access.set values b.attr (T.load b.attr.kind (smp.data b.idx))

/-- The closure of an `addExport`. -/
def exported (b : Binding) (values : Attributes Real) (smp : Sample S) : Except Fault (Sample S) :=
  if T.beyond b.idx smp.capacity then .error (.exception "not enough space in allocated sample")
  else (access.get values b.attr).map fun value => { smp with
    length := if T.beyond b.idx smp.length then b.idx.toInt.toNat + 1 else smp.length
    data := Function.update smp.data b.idx (T.store b.attr.kind value (smp.data b.idx)) }

def addImport (b : Binding) (intf : Closures S Real) : Closures S Real :=
  { intf with mImports := intf.mImports ++ [imported T access b] }

def addImportInt (attr : Nat) (idx : Int32) := addImport T access ⟨⟨.int,attr⟩,idx⟩
def addImportReal (attr : Nat) (idx : Int32) := addImport T access ⟨⟨.real,attr⟩,idx⟩
def addImportBool (attr : Nat) (idx : Int32) := addImport T access ⟨⟨.bool,attr⟩,idx⟩
def addImportComplex (attr : Nat) (idx : Int32) := addImport T access ⟨⟨.complex,attr⟩,idx⟩

def addExport (b : Binding) (intf : Closures S Real) : Closures S Real :=
  { intf with mExports := intf.mExports ++ [exported T access b] }

def addExportInt (attr : Nat) (idx : Int32) := addExport T access ⟨⟨.int,attr⟩,idx⟩
def addExportReal (attr : Nat) (idx : Int32) := addExport T access ⟨⟨.real,attr⟩,idx⟩
def addExportBool (attr : Nat) (idx : Int32) := addExport T access ⟨⟨.bool,attr⟩,idx⟩
def addExportComplex (attr : Nat) (idx : Int32) := addExport T access ⟨⟨.complex,attr⟩,idx⟩

/-- The overload that a binding is registered with. -/
def register (b : Binding) : Closures S Real → Closures S Real :=
  match b with
  | ⟨⟨.int,attr⟩,idx⟩ => addImportInt T access attr idx
  | ⟨⟨.real,attr⟩,idx⟩ => addImportReal T access attr idx
  | ⟨⟨.bool,attr⟩,idx⟩ => addImportBool T access attr idx
  | ⟨⟨.complex,attr⟩,idx⟩ => addImportComplex T access attr idx

def registerExport (b : Binding) : Closures S Real → Closures S Real :=
  match b with
  | ⟨⟨.int,attr⟩,idx⟩ => addExportInt T access attr idx
  | ⟨⟨.real,attr⟩,idx⟩ => addExportReal T access attr idx
  | ⟨⟨.bool,attr⟩,idx⟩ => addExportBool T access attr idx
  | ⟨⟨.complex,attr⟩,idx⟩ => addExportComplex T access attr idx

/-- An interface with these exports and imports, registered in this order. -/
def registered (exports imports : List Binding) : Closures S Real :=
  imports.foldl (fun intf b => register T access b intf)
    (exports.foldl (fun intf b => registerExport T access b intf) ⟨[],[]⟩)

end Closures

section Runs
variable {S Real : Type}

/-- `for (auto exp : mExports) exp(sample);` -/
def Closures.runExports (intf : Closures S Real) (values : Attributes Real) (smp : Sample S) :
    Except Fault (Sample S) := intf.mExports.foldlM (fun smp exp => exp values smp) smp

/-- The imports up to the first one that throws, and what that throws. -/
def runImports (smp : Sample S) : List (Sample S → Attributes Real → Except Fault (Attributes Real)) →
    Attributes Real → Attributes Real × Option Fault
  | [], values => (values,none)
  | imp :: later, values =>
    match imp smp values with
    | .error fault => (values,some fault)
    | .ok values => runImports smp later values

/-- What a call of `shmem_int_read` gives. -/
inductive Received (S : Type) where
  | nothing
  | failed
  | sample (smp : Sample S)

inductive Ended where
  | returned
  | exited
  | threw (fault : Fault)
  deriving DecidableEq

/-- What `readValues` leaves: the attributes, how often it has released the sample, its end. -/
structure ReadEnd (Real : Type) where
  values : Attributes Real
  released : Nat
  ended : Ended

/-- What is read: a blocking call reads until there is something. `none` waits for ever. -/
def receive (blocking : Bool) (available : Int32) (reads : List (Received S)) : Option (Received S) :=
  if blocking then reads.find? fun | .nothing => false | _ => true
  else if available ≤ 0 then some .nothing
  else reads.head?

/-- The handler releases the sample and throws a plain `std::exception`. It is one for `std::exception`:
anything else that a `set` throws passes it, and the sample is not released. -/
def Closures.readValues (intf : Closures S Real) (blocking : Bool) (available : Int32)
    (reads : List (Received S)) (values : Attributes Real) : Option (ReadEnd Real) :=
  (receive blocking available reads).map fun
    | .nothing => ⟨values,0,.returned⟩
    | .failed => ⟨values,0,.exited⟩
    | .sample smp =>
      match runImports smp intf.mImports values with
      | (values,none) => ⟨values,1,.returned⟩
      | (values,some (.exception _)) => ⟨values,1,.threw (.exception "std::exception")⟩
      | (values,some fault) => ⟨values,0,.threw fault⟩

end Runs

variable {S Real : Type} (T : SampleType S Real)

/-- Every import has its slot in the sample. -/
def LongEnough (smp : Sample S) (imports : List Binding) : Prop :=
  ∀ b ∈ imports, T.beyond b.idx smp.length = false

/-- The import throws this: its index is beyond the sample, or its attribute cannot be set. -/
def Fails (access : AttributeAccess Real) (smp : Sample S) (b : Binding) (values : Attributes Real)
    (fault : Fault) : Prop :=
  (T.beyond b.idx smp.length = true ∧ fault = .exception "incomplete data received from interface") ∨
    (T.beyond b.idx smp.length = false ∧
      access.set values b.attr (T.load b.attr.kind (smp.data b.idx)) = .error fault)

variable {T} {access : AttributeAccess Real}

end DPsim.Interface
