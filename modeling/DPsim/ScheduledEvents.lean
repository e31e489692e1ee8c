import DPsim.SlotBounds
import DPsim.PythonSimulation
import Mathlib.Algebra.Order.Ring.Unbundled.Rat

/-! `Simulation.add_event`: which event a call puts into the queue for a Python value. -/
namespace DPsim.Python
open PyArg

inductive AttributeType where
  | bool
  | int
  | uint
  | real
  | complex
  | other
  deriving DecidableEq, Repr

abbrev AttributeType.Value (F : Type) : AttributeType → Type
  | .bool => Bool
  | .int => Int32
  | .uint => UInt32
  | .real => F
  | .complex => F × F
  | .other => Unit

/-- `attribute(name)`, which throws where it is `none`: the type of an attribute and its address. -/
abbrev TypedAttributes (Obj : Type) := Obj → String → Option (AttributeType × Nat)

/-- `attribute<T>(name)`: null if the attribute has another type. -/
def typedAttribute (attr : AttributeType × Nat) (type : AttributeType) : Option Nat :=
  if attr.1 = type then some attr.2 else none

structure MadeEvent (F : Type) where
  mTime : F
  type : AttributeType
  mAttribute : Nat
  mNewValue : type.Value F

/-- `PyLong_AsLong`. The error is set, and the value is -1. -/
def asLong (n : Int) : Int64 × Result :=
  if -2 ^ 63 ≤ n ∧ n < 2 ^ 63 then (Int64.ofInt n,none) else (-1,some Exc.overflowError.raise)

namespace Simulation
variable {F Obj : Type}

def fail : List (MadeEvent F) × Result := ([],raiseTypeError "Invalid attribute or type")

/-- The branches of `addEvent`, with the events they make. `Py_RETURN_NONE` with an error set is a
`SystemError`. -/
def addEventBranch {O : Type} (eventTime : F) (attributeOf : AttributeType → Option Nat) :
    Value F O → List (MadeEvent F) × Result
  | .bool val =>
    match attributeOf .bool with
    | none => fail
    | some attr => ([⟨eventTime,.bool,attr,val⟩],none)
  | .int n =>
    let (long,error) := asLong n
    let val := long.toInt32
    match attributeOf .int, attributeOf .uint with
    | none, none => fail
    | intAttr, uintAttr =>
      ((intAttr.map fun attr => ⟨eventTime,.int,attr,val⟩).toList ++
        (uintAttr.map fun attr => ⟨eventTime,.uint,attr,val.toUInt32⟩).toList,
        error.map fun _ => Exc.systemError.raise)
  | .float val =>
    match attributeOf .real with
    | none => fail
    | some attr => ([⟨eventTime,.real,attr,val⟩],none)
  | .complex re im =>
    match attributeOf .complex with
    | none => fail
    | some attr => ([⟨eventTime,.complex,attr,(re,im)⟩],none)
  | _ => ([],none)

variable [Interpreter F (PyObject Obj)] (lib : TypedAttributes Obj)

structure EventLocals (F Obj : Type) where
  eventTime : Option F
  pyObj : Option (Value F (PyObject Obj))
  name : Option String
  pyVal : Option (Value F (PyObject Obj))

namespace EventLocals

def eventTimeVar : Variable (EventLocals F Obj) (Option F) :=
  ⟨fun m f => { f with eventTime := m f.eventTime },fun _ => rfl⟩
def pyObjVar : Variable (EventLocals F Obj) (Option (Value F (PyObject Obj))) :=
  ⟨fun m f => { f with pyObj := m f.pyObj },fun _ => rfl⟩
def nameVar : Variable (EventLocals F Obj) (Option String) :=
  ⟨fun m f => { f with name := m f.name },fun _ => rfl⟩
def pyValVar : Variable (EventLocals F Obj) (Option (Value F (PyObject Obj))) :=
  ⟨fun m f => { f with pyVal := m f.pyVal },fun _ => rfl⟩

end EventLocals

def eventTargets : List (Target F (PyObject Obj) (EventLocals F Obj)) :=
  [.double EventLocals.eventTimeVar,.pyObject EventLocals.pyObjVar,.charPtr EventLocals.nameVar,
    .pyObject EventLocals.pyValVar]

/-- `addEvent` behind its parser. The null pointer of a component that has not been initialized is
dereferenced. -/
def addEventBody (f : EventLocals F Obj) : Option (List (MadeEvent F) × Result) :=
  match f.eventTime, f.pyObj, f.name, f.pyVal with
  | some eventTime, some pyObj, some name, some pyVal =>
    match pyObj with
    | .object (.component none) => none
    | .object (.component (some comp)) =>
      match lib comp name with
      | none => some ([],raiseTypeError "Invalid attribute")
      | some attr => some (addEventBranch eventTime (typedAttribute attr) pyVal)
    | _ => some ([],raiseTypeError "First argument must be of type dpsim.Component")
  | _, _, _, _ => none

/-- The events that a call makes and adds, one after another, and its result; `none` is undefined
behaviour. -/
def addEvent (args : List (Value F (PyObject Obj))) : Option (List (MadeEvent F) × Result) :=
  let parsed := parseTuple [.d,.O,.s,.O] args
  (storeAll eventTargets parsed.stored ⟨none,none,none,none⟩).bind fun f =>
    match parsed.raised with
    | some raised => some ([],some raised)
    | none => addEventBody lib f

section Queue
variable {σ H : Type} [LinearOrder F] (set : (type : AttributeType) → Nat → type.Value F → H → H)

def eventAt (address : Nat) (made : MadeEvent F) : DPsim.Event F H :=
  AttributeEvent address made.mTime (set made.type made.mAttribute) made.mNewValue

/-- `self->sim->addEvent` of each event; they are made at the next addresses. -/
def addMade (address : Nat) (made : List (MadeEvent F)) (self : Simulation F σ H) : Simulation F σ H :=
  (made.zipIdx address).foldl (fun self (m,address) =>
    { self with sim := self.sim.addEvent (eventAt set address m) }) self

end Queue

def NumericallyEqual {O : Type} : Value F O → (type : AttributeType) → type.Value F → Prop
  | .bool b, .bool, val => val = b
  | .int n, .int, val => val.toInt = n
  | .int n, .uint, val => (val.toNat : Int) = n
  | .float x, .real, val => val = x
  | .complex re im, .complex, val => val = (re,im)
  | _, _, _ => False

def MadeEvent.Requested (args : List (Value F (PyObject Obj))) (made : MadeEvent F) : Prop :=
  ∃ time comp name value, args = [time,.object (.component (some comp)),.str name,value] ∧
    FormatUnit.d.convert time = .ok made.mTime ∧ lib comp name = some (made.type,made.mAttribute) ∧
    NumericallyEqual value made.type made.mNewValue

/-- A call that returns `None` has put the event that it asks for into the queue, and no other; any
other call has raised an exception and left the simulation as it was. -/
def SchedulesOrRaises {σ H : Type} [LinearOrder F] (set : (type : AttributeType) → Nat → type.Value F → H → H)
    (args : List (Value F (PyObject Obj))) (address : Nat) (self : Simulation F σ H) : Prop :=
  ∃ made result, addEvent lib args = some (made,result) ∧
    match result with
    | none => ∃ event, made = [event] ∧ MadeEvent.Requested lib args event ∧
        (addMade set address made self).sim.mEvents.pending =
          eventAt set address event ::ₘ self.sim.mEvents.pending
    | some _ => made = [] ∧ addMade set address made self = self

def Representable {O : Type} : AttributeType → Value F O → Prop
  | .int, .int n => -2 ^ 31 ≤ n ∧ n < 2 ^ 31
  | .uint, .int n => 0 ≤ n ∧ n < 2 ^ 32
  | _, .str _ => False
  | _, .object _ => False
  | _, _ => True

/-- The component has been initialized, and the value is a number that fits into the attribute if
both are integers. -/
def Schedulable (args : List (Value F (PyObject Obj))) : Prop :=
  ∀ time comp name value, args = [time,.object (.component comp),.str name,value] →
    (∃ eventTime, FormatUnit.d.convert time = .ok eventTime) →
    (∃ text, FormatUnit.s.convert (Value.str name : Value F (PyObject Obj)) = .ok text) →
    ∃ obj, comp = some obj ∧ ∀ attr, lib obj name = some attr → Representable attr.1 value

section Integers

theorem asLong_inside {n : Int} (inside : -2 ^ 63 ≤ n ∧ n < 2 ^ 63) : asLong n = (Int64.ofInt n,none) := if_pos inside

theorem asLong_outside {n : Int} (outside : ¬ (-2 ^ 63 ≤ n ∧ n < 2 ^ 63)) :
    asLong n = (-1,some Exc.overflowError.raise) := if_neg outside

/-- An `Int` is the integer that it is narrowed from, exactly if that is within its bounds. -/
theorem int_exact_iff (n : Int) : (Int64.ofInt n).toInt32.toInt = n ↔ -2 ^ 31 ≤ n ∧ n < 2 ^ 31 := by
  have modular : (Int64.ofInt n).toInt32.toInt = n.bmod (2 ^ 32) := by
    rw [Int64.toInt32_ofInt,Int32.toInt_ofInt]
    rfl
  rw [modular]
  constructor
  · intro same
    have := Int.le_bmod (x := n) (m := 2 ^ 32) (by decide)
    have := Int.bmod_lt (x := n) (m := 2 ^ 32) (by decide)
    omega
  · rintro ⟨lower,upper⟩
    exact Int.bmod_eq_of_le (by omega) (by omega)

theorem uint_exact_iff (n : Int) : ((Int64.ofInt n).toInt32.toUInt32.toNat : Int) = n ↔ 0 ≤ n ∧ n < 2 ^ 32 := by
  have modular : (Int64.ofInt n).toInt32.toUInt32.toNat = (n % 2 ^ 32).toNat := by
    rw [Int64.toInt32_ofInt]
    exact BitVec.toNat_ofInt n
  rw [modular]
  omega

end Integers

/-- What the branches make for an attribute, or that they raise. -/
def BranchSchedules {O : Type} (eventTime : F) (attr : AttributeType × Nat) (value : Value F O) : Prop :=
  match addEventBranch eventTime (typedAttribute attr) value with
  | (made,none) => ∃ event, made = [event] ∧ event.mTime = eventTime ∧ (event.type,event.mAttribute) = attr ∧
      NumericallyEqual value event.type event.mNewValue
  | (made,some _) => made = []

section Branches
variable {O : Type} {eventTime : F} {attr : AttributeType × Nat} {value : Value F O}

theorem schedules_made (type : AttributeType) (address : Nat) (val : type.Value F)
    (made : addEventBranch eventTime (typedAttribute (type,address)) value = ([⟨eventTime,type,address,val⟩],none)) :
    BranchSchedules eventTime (type,address) value ↔ NumericallyEqual value type val := by
  unfold BranchSchedules
  rw [made]
  constructor
  · rintro ⟨event,same,_,_,equal⟩
    obtain rfl := List.singleton_inj.mp same
    exact equal
  · exact fun equal => ⟨_,rfl,rfl,rfl,equal⟩

theorem schedules_fail (failed : addEventBranch eventTime (typedAttribute attr) value = fail) :
    BranchSchedules eventTime attr value := by
  unfold BranchSchedules
  rw [failed]
  rfl

theorem schedules_not (made : List (MadeEvent F)) (result : Result)
    (ran : addEventBranch eventTime (typedAttribute attr) value = (made,result))
    (wrong : made = [] ↔ result = none) : ¬ BranchSchedules eventTime attr value := by
  unfold BranchSchedules
  rw [ran]
  cases result with
  | none =>
    rintro ⟨event,same,_⟩
    rw [wrong.mpr rfl] at same
    contradiction
  | some raised =>
    intro nothing
    exact nomatch wrong.mp nothing

/-- The branch of integers. One that does not fit is narrowed, or it is -1 with an error set. -/
theorem branch_int_iff (eventTime : F) (attr : AttributeType × Nat) (n : Int) :
    BranchSchedules eventTime attr (.int n : Value F O) ↔ Representable attr.1 (.int n : Value F O) := by
  obtain ⟨type,address⟩ := attr
  cases type with
  | int =>
    by_cases inside : -2 ^ 63 ≤ n ∧ n < 2 ^ 63
    · have made : BranchSchedules eventTime (.int,address) (.int n : Value F O) ↔
          NumericallyEqual (.int n : Value F O) .int (Int64.ofInt n).toInt32 := by
        apply schedules_made
        simp only [addEventBranch,typedAttribute,asLong_inside inside]
        rfl
      exact made.trans (int_exact_iff n)
    · apply iff_of_false
      · apply schedules_not [⟨eventTime,.int,address,(-1 : Int64).toInt32⟩] (some Exc.systemError.raise) ?_ (by simp)
        simp only [addEventBranch,typedAttribute,asLong_outside inside]
        rfl
      · intro (fits : -2 ^ 31 ≤ n ∧ n < 2 ^ 31)
        omega
  | uint =>
    by_cases inside : -2 ^ 63 ≤ n ∧ n < 2 ^ 63
    · have made : BranchSchedules eventTime (.uint,address) (.int n : Value F O) ↔
          NumericallyEqual (.int n : Value F O) .uint (Int64.ofInt n).toInt32.toUInt32 := by
        apply schedules_made
        simp only [addEventBranch,typedAttribute,asLong_inside inside]
        rfl
      exact made.trans (uint_exact_iff n)
    · apply iff_of_false
      · apply schedules_not [⟨eventTime,.uint,address,(-1 : Int64).toInt32.toUInt32⟩] (some Exc.systemError.raise) ?_
          (by simp)
        simp only [addEventBranch,typedAttribute,asLong_outside inside]
        rfl
      · intro (fits : 0 ≤ n ∧ n < 2 ^ 32)
        omega
  | _ => exact iff_of_true (schedules_fail rfl) trivial

theorem branch_iff (eventTime : F) (attr : AttributeType × Nat) (value : Value F O) :
    BranchSchedules eventTime attr value ↔ Representable attr.1 value := by
  obtain ⟨type,address⟩ := attr
  cases value with
  | int n => exact branch_int_iff eventTime (type,address) n
  | bool b =>
    cases type with
    | bool => exact iff_of_true ((schedules_made .bool address b rfl).mpr rfl) trivial
    | _ => exact iff_of_true (schedules_fail rfl) trivial
  | float x =>
    cases type with
    | real => exact iff_of_true ((schedules_made .real address x rfl).mpr rfl) trivial
    | _ => exact iff_of_true (schedules_fail rfl) trivial
  | complex re im =>
    cases type with
    | complex => exact iff_of_true ((schedules_made .complex address (re,im) rfl).mpr rfl) trivial
    | _ => exact iff_of_true (schedules_fail rfl) trivial
  | str text => exact iff_of_false (schedules_not [] none rfl (by simp)) (by cases type <;> exact id)
  | object o => exact iff_of_false (schedules_not [] none rfl (by simp)) (by cases type <;> exact id)

end Branches

theorem addEvent_four (time obj name value : Value F (PyObject Obj)) : addEvent lib [time,obj,name,value] =
    match FormatUnit.d.convert time, FormatUnit.s.convert name with
    | .error raised, _ => some ([],some raised)
    | .ok _, .error raised => some ([],some raised)
    | .ok eventTime, .ok text => addEventBody lib ⟨some eventTime,some obj,some text,some value⟩ := by
  have taken : parseTuple [.d,.O,.s,.O] [time,obj,name,value] =
      Param.take ⟨.d,"",true⟩ time (Param.take ⟨.O,"",true⟩ obj (Param.take ⟨.s,"",true⟩ name
        (Param.take ⟨.O,"",true⟩ value ⟨[],none⟩))) := rfl
  unfold addEvent
  rw [taken]
  cases converted : FormatUnit.d.convert time with
  | error raised =>
    simp only [Param.take,converted]
    rfl
  | ok eventTime =>
    cases converted' : FormatUnit.s.convert name with
    | error raised =>
      simp only [Param.take,converted,converted']
      rfl
    | ok text =>
      simp only [Param.take,converted,converted']
      rfl

theorem addEvent_count {args : List (Value F (PyObject Obj))} (other : args.length ≠ 4) :
    addEvent lib args = some ([],some Exc.typeError.raise) := by
  have refused : parseTuple [.d,.O,.s,.O] args = ⟨[],some Exc.typeError.raise⟩ := if_pos other
  unfold addEvent
  rw [refused]
  rfl

omit [Interpreter F (PyObject Obj)] in
theorem addEventBody_other {obj : Value F (PyObject Obj)} (other : ∀ comp, obj ≠ .object (.component comp))
    (eventTime : F) (name : String) (value : Value F (PyObject Obj)) :
    addEventBody lib ⟨some eventTime,some obj,some name,some value⟩ =
      some ([],raiseTypeError "First argument must be of type dpsim.Component") := by
  unfold addEventBody
  dsimp only
  split
  · exact absurd rfl (other none)
  · rename_i comp
    exact absurd rfl (other (some comp))
  · rfl

theorem addMade_one {σ H : Type} [LinearOrder F] (set : (type : AttributeType) → Nat → type.Value F → H → H)
    (address : Nat) (event : MadeEvent F) (self : Simulation F σ H) :
    (addMade set address [event] self).sim.mEvents.pending = eventAt set address event ::ₘ self.sim.mEvents.pending :=
  self.sim.mEvents.pending_addEvent (eventAt set address event)

section Calls
variable {σ H : Type} [LinearOrder F] {lib} {set : (type : AttributeType) → Nat → type.Value F → H → H}
  {address : Nat} {self : Simulation F σ H}

theorem raises_schedules {args : List (Value F (PyObject Obj))} {raised : Raised}
    (ran : addEvent lib args = some ([],some raised)) : SchedulesOrRaises lib set args address self :=
  ⟨[],_,ran,rfl,rfl⟩

theorem branch_schedules {time value : Value F (PyObject Obj)} {comp : Obj} {name : String} {eventTime : F}
    {attr : AttributeType × Nat} (converted : FormatUnit.d.convert time = .ok eventTime)
    (known : lib comp name = some attr)
    (ran : addEvent lib [time,.object (.component (some comp)),.str name,value] =
      some (addEventBranch eventTime (typedAttribute attr) value)) :
    SchedulesOrRaises lib set [time,.object (.component (some comp)),.str name,value] address self ↔
      BranchSchedules eventTime attr value := by
  unfold SchedulesOrRaises BranchSchedules
  rw [ran]
  obtain ⟨made,result⟩ := addEventBranch eventTime (typedAttribute attr) value
  cases result with
  | some raised =>
    constructor
    · rintro ⟨made',result',same,nothing⟩
      cases same
      exact nothing.1
    · rintro rfl
      exact ⟨[],_,rfl,rfl,rfl⟩
  | none =>
    constructor
    · rintro ⟨made',result',same,rest⟩
      cases same
      obtain ⟨event,one,⟨_,_,_,_,args,time',known',equal⟩,_⟩ := rest
      cases args
      refine ⟨event,one,?_,?_,equal⟩
      · exact Except.ok.inj (time'.symm.trans converted)
      · exact Option.some.inj (known'.symm.trans known)
    · rintro ⟨event,rfl,rfl,rfl,equal⟩
      exact ⟨_,_,rfl,event,rfl,⟨time,comp,name,value,rfl,converted,known,equal⟩,addMade_one set address event self⟩

theorem component_iff {time value : Value F (PyObject Obj)} {comp : Obj} {name : String} {eventTime : F}
    (converted : FormatUnit.d.convert time = .ok eventTime)
    (ran : addEvent lib [time,.object (.component (some comp)),.str name,value] =
      addEventBody lib ⟨some eventTime,some (.object (.component (some comp))),some name,some value⟩) :
    SchedulesOrRaises lib set [time,.object (.component (some comp)),.str name,value] address self ↔
      ∀ attr, lib comp name = some attr → Representable attr.1 value := by
  cases known : lib comp name with
  | none =>
    simp only [addEventBody,known] at ran
    exact iff_of_true (raises_schedules ran) nofun
  | some attr =>
    simp only [addEventBody,known] at ran
    apply (branch_schedules converted known ran).trans ((branch_iff eventTime attr value).trans _)
    constructor
    · rintro fits _ ⟨⟩
      exact fits
    · exact fun fits => fits attr rfl

omit [LinearOrder F] in
theorem schedulable_component {time value : Value F (PyObject Obj)} {comp : Option Obj} {name text : String}
    {eventTime : F} (converted : FormatUnit.d.convert time = .ok eventTime)
    (named : FormatUnit.s.convert (.str name : Value F (PyObject Obj)) = .ok text) :
    Schedulable lib [time,.object (.component comp),.str name,value] ↔
      ∃ obj, comp = some obj ∧ ∀ attr, lib obj name = some attr → Representable attr.1 value := by
  constructor
  · exact fun fits => fits _ _ _ _ rfl ⟨eventTime,converted⟩ ⟨text,named⟩
  · rintro fits _ _ _ _ ⟨⟩ _ _
    exact fits

theorem named_iff {time obj value : Value F (PyObject Obj)} {name text : String} {eventTime : F}
    (converted : FormatUnit.d.convert time = .ok eventTime)
    (named : FormatUnit.s.convert (.str name : Value F (PyObject Obj)) = .ok text)
    (ran : addEvent lib [time,obj,.str name,value] =
      addEventBody lib ⟨some eventTime,some obj,some name,some value⟩) :
    SchedulesOrRaises lib set [time,obj,.str name,value] address self ↔
      Schedulable lib [time,obj,.str name,value] := by
  by_cases component : ∃ comp, obj = .object (.component comp)
  · obtain ⟨comp,rfl⟩ := component
    rw [schedulable_component converted named]
    cases comp with
    | none =>
      apply iff_of_false
      · rintro ⟨made,result,defined,_⟩
        exact nomatch ran.symm.trans defined
      · rintro ⟨obj,initialized,_⟩
        contradiction
    | some comp =>
      rw [component_iff converted ran]
      constructor
      · exact fun fits => ⟨comp,rfl,fits⟩
      · rintro ⟨_,⟨⟩,fits⟩
        exact fits
  · rw [addEventBody_other lib fun comp same => component ⟨comp,same⟩] at ran
    apply iff_of_true (raises_schedules ran)
    rintro _ comp _ _ ⟨⟩
    exact absurd ⟨comp,rfl⟩ component

end Calls

/-- A call schedules the change or raises, exactly if its arguments are schedulable. -/
theorem schedules_iff {σ H : Type} [LinearOrder F] (set : (type : AttributeType) → Nat → type.Value F → H → H)
    (args : List (Value F (PyObject Obj))) (address : Nat) (self : Simulation F σ H) :
    SchedulesOrRaises lib set args address self ↔ Schedulable lib args := by
  by_cases four : args.length = 4
  · match args, four with
    | [time,obj,name,value], _ =>
      have ran := addEvent_four lib time obj name value
      cases converted : FormatUnit.d.convert time with
      | error raised =>
        rw [converted] at ran
        apply iff_of_true (raises_schedules ran)
        rintro _ _ _ _ ⟨⟩ ⟨eventTime,converts⟩
        rw [converted] at converts
        contradiction
      | ok eventTime =>
        cases named : FormatUnit.s.convert name with
        | error raised =>
          rw [converted,named] at ran
          apply iff_of_true (raises_schedules ran)
          rintro _ _ _ _ ⟨⟩ _ ⟨text,converts⟩
          rw [named] at converts
          contradiction
        | ok text =>
          obtain rfl := convert_string named
          rw [converted,named] at ran
          exact named_iff converted named ran
  · apply iff_of_true (raises_schedules (addEvent_count lib four))
    rintro time comp name value rfl
    exact absurd rfl four

section Examples

def tapChanger : TypedAttributes Nat
  | _, "position" => some (.int,1)
  | _, _ => none

def transformer : Value ℚ (PyObject Nat) := .object (.component (some 0))

def waiting : Simulation ℚ Unit (Nat → Int32) :=
  .init ⟨0,10,0,(),DPsim.EventQueue.empty,[],[],fun _ => 0⟩ false false false false

def setPosition : (type : AttributeType) → Nat → type.Value ℚ → (Nat → Int32) → Nat → Int32
  | .int, address, val, h => Function.update h address val
  | _, _, _, h => h

/-- `add_event(1, transformer, "position", "up")` returns `None` and schedules nothing; 2 ^ 32 schedules
a zero. -/
theorem text_dropped : addEvent tapChanger [.int 1,transformer,.str "position",.str "up"] = some ([],none) ∧
    addEvent tapChanger [.int 1,transformer,.str "position",.int (2 ^ 32)] = some ([⟨1,.int,1,0⟩],none) ∧
    ¬ SchedulesOrRaises tapChanger setPosition [.int 1,transformer,.str "position",.str "up"] 0 waiting ∧
    ¬ SchedulesOrRaises tapChanger setPosition [.int 1,transformer,.str "position",.int (2 ^ 32)] 0 waiting := by
  have dropped : addEvent tapChanger [.int 1,transformer,.str "position",.str "up"] = some ([],none) := rfl
  have narrowed : addEvent tapChanger [.int 1,transformer,.str "position",.int (2 ^ 32)] =
      some ([⟨1,.int,1,0⟩],none) := rfl
  refine ⟨dropped,narrowed,?_,?_⟩
  · rintro ⟨made,result,ran,rest⟩
    cases dropped.symm.trans ran
    obtain ⟨event,one,_⟩ := rest
    contradiction
  · rintro ⟨made,result,ran,rest⟩
    cases narrowed.symm.trans ran
    obtain ⟨event,one,⟨_,_,_,_,⟨⟩,_,_,equal⟩,_⟩ := rest
    obtain rfl := List.singleton_inj.mp one
    change (0 : Int32).toInt = 2 ^ 32 at equal
    contradiction

end Examples
end Simulation
end DPsim.Python
