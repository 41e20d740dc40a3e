/-! # Locations in a source file -/

namespace ZephirPhp

structure Location where
  file : Option String := none
  line : Option UInt32 := none
  column : Option UInt32 := none
deriving DecidableEq, Repr, Inhabited

namespace Location

def unknown : Location := {}

def isKnown (location : Location) : Bool :=
  location.file.isSome || location.line.isSome

def numberText : Option UInt32 → String
  | none => ""
  | some number => ":" ++ Nat.repr number.toNat

/-- The end of a message about something at a location. A column alone does not make a
location known. -/
def suffix (location : Location) : String :=
  if location.isKnown then
    " at " ++ location.file.getD "" ++ numberText location.line ++
      numberText location.column
  else
    ""

example : suffix ⟨some "a.zep", some 12, some 4⟩ = " at a.zep:12:4" ∧
    suffix ⟨none, none, some 4⟩ = "" ∧
    suffix ⟨none, some 2, none⟩ = " at :2" := by decide

end Location

end ZephirPhp
