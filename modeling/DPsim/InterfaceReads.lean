import DPsim.InterfaceValues

/-! What `readValues` does to the attributes, and how it undoes the exports of another interface. -/
namespace DPsim.Interface
open Updates

variable {S Real : Type}

/-- These imports have been made: an attribute has the value that the last of them for it reads, and
the other attributes have not changed. -/
structure Made (T : SampleType S Real) (imports : List Binding) (smp : Sample S)
    (values values' : Attributes Real) : Prop where
  last : ∀ before b after, imports = before ++ b :: after → (∀ c ∈ after, c.attr ≠ b.attr) →
    values' b.attr = T.load b.attr.kind (smp.data b.idx)
  others : ∀ attr, (∀ b ∈ imports, b.attr ≠ attr) → values' attr = values attr

/-- What `readValues` makes of an exception: it releases the sample and throws a `std::exception` if it
is one, and else lets it pass and keeps the sample. -/
def Rethrown (fault : Fault) (r : ReadEnd Real) : Prop :=
  (∃ what, fault = .exception what ∧ r.ended = .threw (.exception "std::exception") ∧ r.released = 1) ∨
    ((∀ what, fault ≠ .exception what) ∧ r.ended = .threw fault ∧ r.released = 0)

/-- The import `b` throws, and exactly those that are registered before it have been made. -/
structure Stopped (T : SampleType S Real) (access : AttributeAccess Real) (imports : List Binding)
    (before : List Binding) (b : Binding) (smp : Sample S) (values : Attributes Real) (r : ReadEnd Real) :
    Prop where
  first : before ++ [b] <+: imports
  enough : LongEnough T smp before
  made : Made T before smp values r.values
  fails : ∃ fault, Fails T access smp b r.values fault ∧ Rethrown fault r

structure Refused (imports : List Binding) (values : Attributes Real) (r : ReadEnd Real) : Prop where
  ended : ∃ fault, r.ended = .threw fault
  kept : ∀ b ∈ imports, r.values b.attr = values b.attr

/-- The last of these imports for an attribute would give it the value that it has. -/
def AlreadyThere (T : SampleType S Real) (imports : List Binding) (smp : Sample S)
    (values : Attributes Real) : Prop :=
  ∀ before b after, imports = before ++ b :: after → (∀ c ∈ after, c.attr ≠ b.attr) →
    T.load b.attr.kind (smp.data b.idx) = values b.attr

theorem Made.kept_iff {T : SampleType S Real} {smp : Sample S} {imports made : List Binding}
    {values values' : Attributes Real} (done : Made T made smp values values') (some : made ⊆ imports) :
    (∀ b ∈ imports, values' b.attr = values b.attr) ↔ AlreadyThere T made smp values := by
  constructor
  · intro kept before b after split last
    have member : b ∈ made := by simp [split]
    rw [← kept b (some member),done.last before b after split last]
  · intro there b member
    by_cases set : ∃ c ∈ made, c.attr = b.attr
    · obtain ⟨before,c,after,split,same,last⟩ := exists_last set
      rw [← same] at last ⊢
      rw [done.last before c after split last,there before c after split last]
    · simp only [not_exists,not_and] at set
      exact done.others b.attr set

/-- A `readValues` that throws has changed nothing exactly if the imports before the one that throws
change nothing. -/
theorem atomic_iff {T : SampleType S Real} {access : AttributeAccess Real} {imports before : List Binding}
    {b : Binding} {smp : Sample S} {values : Attributes Real} {r : ReadEnd Real}
    (stopped : Stopped T access imports before b smp values r) :
    Refused imports values r ↔ AlreadyThere T before smp values := by
  obtain ⟨after,split⟩ := stopped.first
  have some : before ⊆ imports := fun c member => by
    rw [← split,List.append_assoc]
    exact List.mem_append_left _ member
  rw [← stopped.made.kept_iff some]
  refine ⟨Refused.kept,fun kept => ⟨?_,kept⟩⟩
  obtain ⟨fault,_,⟨_,_,ended,_⟩ | ⟨_,ended,_⟩⟩ := stopped.fails
  · exact ⟨_,ended⟩
  · exact ⟨_,ended⟩

/-- The bits of some numbers in single precision; the rest is a NaN. -/
def floatBits : Int → UInt32
  | 0 => 0
  | 1 => 0x3F800000
  | 2 => 0x40000000
  | _ => 0x7FC00000

def ofFloatBits (bits : UInt32) : Int :=
  if bits = 0 then 0 else if bits = 0x3F800000 then 1 else if bits = 0x40000000 then 2 else -1

/-- Slots of two words, of which a `Bool` takes the lowest byte. -/
def words : SampleType (UInt32 × UInt32) Int where
  signed := false
  store
    | .int, v, _ => (v.toUInt32,if v < 0 then 0xFFFFFFFF else 0)
    | .real, v, (_,high) => (floatBits v,high)
    | .bool, v, (low,high) => (low &&& 0xFFFFFF00 ||| if v then 1 else 0,high)
    | .complex, v, _ => (floatBits v.1,floatBits v.2)
  load
    | .int, (low,_) => low.toInt32
    | .real, (low,_) => ofFloatBits low
    | .bool, (low,_) => low &&& 0xFF ≠ 0
    | .complex, (low,high) => (ofFloatBits low,ofFloatBits high)

def zeros : Attributes Int
  | ⟨.int,_⟩ => (0 : Int32)
  | ⟨.real,_⟩ => (0 : Int)
  | ⟨.bool,_⟩ => false
  | ⟨.complex,_⟩ => ((0 : Int),(0 : Int))

def received (length : Nat) : Sample (UInt32 × UInt32) :=
  ⟨0,length,64,fun idx => if idx = 0 then (7,0) else (0x3F800000,0)⟩

end DPsim.Interface
