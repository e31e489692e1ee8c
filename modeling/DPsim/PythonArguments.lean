import Mathlib.Data.List.Nodup
import Mathlib.Data.List.Perm.Basic
import Mathlib.Algebra.Ring.Int.Defs

/-! How CPython's `PyArg_ParseTuple` and `PyArg_ParseTupleAndKeywords` take the arguments of a call
apart. A format has a unit for each parameter; what a unit has converted is stored in the variable
that is passed for it. -/
namespace PyArg

/-- An object as the converters see it. `F` are the doubles, `O` the objects that are no numbers
and no strings. -/
inductive Value (F O : Type) where
  | bool (b : Bool)
  | int (n : Int)
  | float (x : F)
  | complex (re im : F)
  | str (s : String)
  | object (o : O)
  deriving DecidableEq, Repr

inductive Exc where
  | typeError
  | valueError
  | overflowError
  | indexError
  | attributeError
  | systemError
  deriving DecidableEq, Repr

/-- The exception that is set; the texts are those of the caller, `none` is one of the interpreter. -/
structure Raised where
  exc : Exc
  message : Option String
  deriving DecidableEq, Repr

def Exc.raise (exc : Exc) : Raised := ⟨exc,none⟩

/-- What the interpreter knows about doubles and about the truth of other objects. -/
class Interpreter (F O : Type) where
  ofInt : Int → Option F
  nonzero : F → Bool
  isTrue : O → Bool

inductive FormatUnit where
  | s
  | O
  | i
  | k
  | b
  | d
  | p
  deriving DecidableEq, Repr

section Convert
variable (F O : Type)

/-- The C type of the variable that a unit is for; `unsigned long` has 64 bits. -/
abbrev FormatUnit.Stored : FormatUnit → Type
  | .s => String
  | .O => Value F O
  | .i => Int32
  | .k => UInt64
  | .b => UInt8
  | .d => F
  | .p => Int32

variable {F O} [Interpreter F O]

def Value.asInt : Value F O → Option Int
  | .bool b => some (if b then 1 else 0)
  | .int n => some n
  | _ => none

def Value.isTrue : Value F O → Bool
  | .bool b => b
  | .int n => n ≠ 0
  | .float x => Interpreter.nonzero O x
  | .complex re im => Interpreter.nonzero O re || Interpreter.nonzero O im
  | .str s => s ≠ ""
  | .object o => Interpreter.isTrue F o

def bounded (lower upper : Int) (ofInt : Int → α) (v : Value F O) : Except Raised α :=
  match v.asInt with
  | none => .error Exc.typeError.raise
  | some n => if lower ≤ n ∧ n < upper then .ok (ofInt n) else .error Exc.overflowError.raise

def asDouble : Value F O → Except Raised F
  | .float x => .ok x
  | v =>
    match v.asInt with
    | none => .error Exc.typeError.raise
    | some n =>
      match (Interpreter.ofInt O n : Option F) with
      | none => .error Exc.overflowError.raise
      | some x => .ok x

def FormatUnit.convert : (u : FormatUnit) → Value F O → Except Raised (u.Stored F O)
  | .s, .str text =>
    if text.toList.contains (Char.ofNat 0) then .error Exc.valueError.raise else .ok text
  | .s, _ => .error Exc.typeError.raise
  | .O, v => .ok v
  | .i, v => bounded (-2 ^ 31) (2 ^ 31) Int32.ofInt v
  | .k, v => -- without a check for overflow
    match v.asInt with
    | none => .error Exc.typeError.raise
    | some n => .ok (UInt64.ofInt n)
  | .b, v => bounded 0 256 (fun n => n.toNat.toUInt8) v
  | .d, v => asDouble v
  | .p, v => .ok (if v.isTrue then 1 else 0)

theorem convert_string {v : Value F O} {text : String} (converted : FormatUnit.s.convert v = .ok text) :
    v = .str text := by
  cases v with
  | str name =>
    change (if name.toList.contains (Char.ofNat 0) then .error Exc.valueError.raise else .ok name) =
      (.ok text : Except Raised String) at converted
    split at converted
    · contradiction
    · rw [Except.ok.inj converted]
  | _ => contradiction

end Convert

structure Format where
  required : List FormatUnit
  optional : List FormatUnit
  deriving DecidableEq, Repr

structure Param where
  unit : FormatUnit
  name : String
  required : Bool
  deriving DecidableEq, Repr

def Format.params (format : Format) (kwlist : List String) : List Param :=
  List.zipWith (fun (u,required) name => ⟨u,name,required⟩)
    (format.required.map (·,true) ++ format.optional.map (·,false)) kwlist

abbrev Stored (F O : Type) := (u : FormatUnit) × u.Stored F O

/-- What has been stored for the parameters, one after another, and the exception that ended it. -/
structure Parsed (F O : Type) where
  stored : List (Option (Stored F O))
  raised : Option Raised

section Parse
variable {F O : Type} [Interpreter F O]

def Parsed.cons (stored : Option (Stored F O)) (rest : Parsed F O) : Parsed F O :=
  { rest with stored := stored :: rest.stored }

def Param.take (p : Param) (v : Value F O) (rest : Parsed F O) : Parsed F O :=
  match p.unit.convert v with
  | .error raised => ⟨[],some raised⟩
  | .ok x => rest.cons (some ⟨p.unit,x⟩)

/-- The loop over the parameters; `left` is the number of keyword arguments not used yet. -/
def parseLoop (kwargs : List (String × Value F O)) : List Param → List (Value F O) → Nat → Parsed F O
  | [], _, left => ⟨[],if left = 0 then none else some Exc.typeError.raise⟩
  | p :: params, v :: args, left => p.take v (parseLoop kwargs params args left)
  | p :: params, [], left =>
    match if left = 0 then none else kwargs.lookup p.name with
    | some v => p.take v (parseLoop kwargs params [] (left - 1))
    | none =>
      if p.required then ⟨[],some Exc.typeError.raise⟩
      else (parseLoop kwargs params [] left).cons none

def parseTupleAndKeywords (format : Format) (kwlist : List String) (args : List (Value F O))
    (kwargs : List (String × Value F O)) : Parsed F O :=
  if kwlist.length < args.length + kwargs.length then ⟨[],some Exc.typeError.raise⟩
  else parseLoop kwargs (format.params kwlist) args kwargs.length

/-- `PyArg_ParseTuple` for a format without optional units. -/
def parseTuple (units : List FormatUnit) (args : List (Value F O)) : Parsed F O :=
  if args.length ≠ units.length then ⟨[],some Exc.typeError.raise⟩
  else parseLoop [] (units.map fun u => ⟨u,"",true⟩) args 0

/-- The call gives each parameter this value or none: the first ones by position, others by keyword. -/
structure Passes (params : List Param) (given : String → Option (Value F O)) (args : List (Value F O))
    (kwargs : List (String × Value F O)) : Prop where
  fits : args.length ≤ params.length
  positional : (params.take args.length).map (fun p => given p.name) = args.map some
  keyword : ∀ p ∈ params.drop args.length, kwargs.lookup p.name = given p.name
  distinct : (kwargs.map Prod.fst).Nodup
  known : ∀ name ∈ kwargs.map Prod.fst, name ∈ (params.drop args.length).map Param.name

def Accepted (params : List Param) (given : String → Option (Value F O)) : Prop :=
  ∀ p ∈ params, match given p.name with
    | none => p.required = false
    | some v => ∃ x, p.unit.convert v = .ok x

def Param.stores (p : Param) (given : String → Option (Value F O)) : Option (Stored F O) :=
  (given p.name).bind fun v => (p.unit.convert v).toOption.map (Sigma.mk p.unit)

omit [Interpreter F O] in
theorem Passes.left {params : List Param} {given : String → Option (Value F O)} {args : List (Value F O)}
    {kwargs : List (String × Value F O)} (passes : Passes params given args kwargs)
    (names : (params.map Param.name).Nodup) :
    kwargs.length = (params.drop args.length).countP fun p => (given p.name).isSome := by
  have later : ((params.drop args.length).map Param.name).Nodup := by
    rw [List.map_drop]
    exact names.sublist (List.drop_sublist _ _)
  have same : (kwargs.map Prod.fst).Perm
      (((params.drop args.length).filter fun p => (given p.name).isSome).map Param.name) := by
    apply (List.perm_ext_iff_of_nodup passes.distinct ?_).mpr
    · intro name
      constructor
      · intro member
        obtain ⟨p,remaining,rfl⟩ := List.mem_map.mp (passes.known name member)
        refine List.mem_map.mpr ⟨p,List.mem_filter.mpr ⟨remaining,?_⟩,rfl⟩
        rw [← passes.keyword p remaining,List.lookup_isSome_iff]
        obtain ⟨pair,there,same⟩ := List.mem_map.mp member
        exact ⟨pair,there,by simp [same]⟩
      · intro member
        obtain ⟨p,filtered,rfl⟩ := List.mem_map.mp member
        obtain ⟨remaining,given⟩ := List.mem_filter.mp filtered
        rw [← passes.keyword p remaining,List.lookup_isSome_iff] at given
        obtain ⟨pair,there,same⟩ := given
        exact List.mem_map.mpr ⟨pair,there,by simpa using (beq_iff_eq.mp same).symm⟩
    · exact later.sublist (List.Sublist.map _ List.filter_sublist)
  rw [List.countP_eq_length_filter]
  simpa using same.length_eq

end Parse

/-- A variable of a frame; changing it in no way leaves the frame as it is. -/
structure Variable (Frame α : Type) where
  modify : (α → α) → Frame → Frame
  same : ∀ frame, modify id frame = frame

/-- The variable whose address is passed for a parameter, with its C type. -/
inductive Target (F O Frame : Type) where
  | charPtr (variable_ : Variable Frame (Option String))
  | pyObject (variable_ : Variable Frame (Option (Value F O)))
  | int (variable_ : Variable Frame (Option Int32))
  | unsignedLong (variable_ : Variable Frame (Option UInt64))
  | double (variable_ : Variable Frame (Option F))

section Store
variable {F O Frame : Type}

/-- The lowest byte of an integer in memory. -/
def setByte (byte : UInt8) (n : Int32) : Int32 := (n.toUInt32 &&& 0xFFFFFF00 ||| byte.toUInt32).toInt32

/-- A unit stores into the variable as into one of its own C type: `none` where that is another one,
which overwrites other memory too. An `unsigned char` only overwrites a part of an `int`. -/
def Target.store : Target F O Frame → Stored F O → Frame → Option Frame
  | .charPtr v, ⟨.s,x⟩, frame => some (v.modify (fun _ => some x) frame)
  | .pyObject v, ⟨.O,x⟩, frame => some (v.modify (fun _ => some x) frame)
  | .int v, ⟨.i,x⟩, frame => some (v.modify (fun _ => some x) frame)
  | .int v, ⟨.p,x⟩, frame => some (v.modify (fun _ => some x) frame)
  | .int v, ⟨.b,x⟩, frame => some (v.modify (fun old => old.map (setByte x)) frame)
  | .unsignedLong v, ⟨.k,x⟩, frame => some (v.modify (fun _ => some x) frame)
  | .double v, ⟨.d,x⟩, frame => some (v.modify (fun _ => some x) frame)
  | _, _, _ => none

def storeAll : List (Target F O Frame) → List (Option (Stored F O)) → Frame → Option Frame
  | target :: targets, some x :: stored, frame => (target.store x frame).bind (storeAll targets stored)
  | _ :: targets, none :: stored, frame => storeAll targets stored frame
  | _, _, frame => some frame

/-- The variable of a parameter, and what storing a converted value does to it. -/
structure Binding (F O Frame : Type) : Type 1 where
  param : Param
  Content : Type
  variable_ : Variable Frame Content
  write : param.unit.Stored F O → Content → Content
  target : Target F O Frame
  stores : ∀ x frame, target.store ⟨param.unit,x⟩ frame = some (variable_.modify (write x) frame)

variable [Interpreter F O]

def Param.converted (p : Param) (given : String → Option (Value F O)) : Option (p.unit.Stored F O) :=
  (given p.name).bind fun v => (p.unit.convert v).toOption

def Binding.bind (given : String → Option (Value F O)) (frame : Frame) (b : Binding F O Frame) : Frame :=
  b.variable_.modify (fun old => (b.param.converted given).elim old fun x => b.write x old) frame

theorem storeAll_cons {kwargs : List (String × Value F O)} {p : Param} {params : List Param} {args : List (Value F O)}
    {left : Nat} {t : Target F O Frame} {targets : List (Target F O Frame)} {frame frame' : Frame}
    (stored : storeAll (t :: targets) (parseLoop kwargs (p :: params) args left).stored frame = some frame') :
    frame' = frame ∨
    (∃ v x next left', (args.head? <|> kwargs.lookup p.name) = some v ∧ p.unit.convert v = .ok x ∧
      t.store ⟨p.unit,x⟩ frame = some next ∧
      storeAll targets (parseLoop kwargs params args.tail left').stored next = some frame') ∨
    (p.required = false ∧ storeAll targets (parseLoop kwargs params args.tail left).stored frame = some frame') := by
  have taken {v : Value F O} {left : Nat} (passed : (args.head? <|> kwargs.lookup p.name) = some v)
      (stored : storeAll (t :: targets) (p.take v (parseLoop kwargs params args.tail left)).stored frame =
        some frame') :
      frame' = frame ∨ ∃ v x next left', (args.head? <|> kwargs.lookup p.name) = some v ∧ p.unit.convert v = .ok x ∧
        t.store ⟨p.unit,x⟩ frame = some next ∧
        storeAll targets (parseLoop kwargs params args.tail left').stored next = some frame' := by
    unfold Param.take at stored
    split at stored
    · exact .inl (Option.some.inj stored).symm
    · rename_i x converted
      obtain ⟨next,first,later⟩ := Option.bind_eq_some_iff.mp stored
      exact .inr ⟨v,x,next,left,passed,converted,first,later⟩
  cases args with
  | cons v args => exact (taken rfl stored).imp_right .inl
  | nil =>
    simp only [parseLoop] at stored
    split at stored
    · rename_i v found
      apply (taken _ stored).imp_right .inl
      split at found
      · contradiction
      · exact found
    · split at stored
      · exact .inl (Option.some.inj stored).symm
      · rename_i optional
        exact .inr (.inr ⟨Bool.eq_false_iff.mpr optional,stored⟩)

theorem storeAll_keeps {α : Type} (part : Frame → α) {params : List Param} {targets : List (Target F O Frame)}
    (apart : ∀ q ∈ params.zip targets, ∀ (x : q.1.unit.Stored F O) (frame frame' : Frame),
      q.2.store ⟨q.1.unit,x⟩ frame = some frame' → part frame' = part frame)
    {kwargs : List (String × Value F O)} {args : List (Value F O)} {left : Nat} {frame frame' : Frame}
    (stored : storeAll targets (parseLoop kwargs params args left).stored frame = some frame') :
    part frame' = part frame := by
  induction params generalizing targets args left frame with
  | nil =>
    have unchanged : storeAll targets ([] : List (Option (Stored F O))) frame = some frame := by
      cases targets <;> rfl
    exact congrArg part (Option.some.inj (stored.symm.trans unchanged))
  | cons p params ih =>
    cases targets with
    | nil => exact congrArg part (Option.some.inj stored).symm
    | cons t targets =>
      have others := fun q member => apart q (List.mem_cons_of_mem (p,t) member)
      obtain rfl | ⟨_,x,next,_,_,_,first,later⟩ | ⟨_,later⟩ := storeAll_cons stored
      · rfl
      · exact (ih others later).trans (apart (p,t) List.mem_cons_self x frame next first)
      · exact ih others later

end Store
end PyArg
