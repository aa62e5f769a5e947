/-! # Basic types

The predeclared types that have no components, and the names under which they are written.
-/
namespace TypeIdentity

inductive BasicType
  | bool | int | int8 | int16 | int32 | int64 | uint | uint8 | uint16 | uint32 | uint64 | uintptr
  | float32 | float64 | complex64 | complex128 | string | unsafePointer
  deriving DecidableEq, Hashable, Repr

namespace BasicType

def all : List BasicType := [
  bool, int, int8, int16, int32, int64, uint, uint8, uint16, uint32, uint64, uintptr,
  float32, float64, complex64, complex128, string, unsafePointer]

def name : BasicType → String
  | bool => "bool"
  | int => "int"
  | int8 => "int8"
  | int16 => "int16"
  | int32 => "int32"
  | int64 => "int64"
  | uint => "uint"
  | uint8 => "uint8"
  | uint16 => "uint16"
  | uint32 => "uint32"
  | uint64 => "uint64"
  | uintptr => "uintptr"
  | float32 => "float32"
  | float64 => "float64"
  | complex64 => "complex64"
  | complex128 => "complex128"
  | string => "string"
  | unsafePointer => "unsafe.Pointer"

/-- The basic type of a name; two of them have a second name. -/
def ofName? (s : String) : Option BasicType :=
  if s = "byte" then some uint8
  else if s = "rune" then some int32
  else all.find? (·.name = s)

theorem mem_all (b : BasicType) : b ∈ all := by cases b <;> decide

@[simp] theorem ofName?_name (b : BasicType) : ofName? b.name = some b := by cases b <;> decide

end BasicType
end TypeIdentity
