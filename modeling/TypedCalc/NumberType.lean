/-!
# Number types

The nine types a number can have: integers of 8, 16, 32 and 64 bits, unsigned and signed, and
the double.  An integer type has a range, and `IntegerType.wrap` sends every whole number to
the one number of that range that it is congruent to modulo `2 ^ width`.

* `IntegerType.wrap_inRange` says that the result lies in the range.
* `NumberType.minimum?` and its neighbours refuse the double, which has no integer range.
-/

namespace TypedCalc

/-! ## Integer types -/

/-- A fixed-width integer type. -/
inductive IntegerType
  | u8 | u16 | u32 | u64 | i8 | i16 | i32 | i64
  deriving DecidableEq, Repr

namespace IntegerType

/-- All integer types, unsigned first, narrowest first. -/
def all : List IntegerType := [.u8, .u16, .u32, .u64, .i8, .i16, .i32, .i64]

/-- The lower-case name, which is also the name of the cast to the type. -/
def name : IntegerType → String
  | .u8 => "u8" | .u16 => "u16" | .u32 => "u32" | .u64 => "u64"
  | .i8 => "i8" | .i16 => "i16" | .i32 => "i32" | .i64 => "i64"

/-- The name in capitals, as it appears in the names of constants. -/
def capitalName : IntegerType → String
  | .u8 => "U8" | .u16 => "U16" | .u32 => "U32" | .u64 => "U64"
  | .i8 => "I8" | .i16 => "I16" | .i32 => "I32" | .i64 => "I64"

/-- Whether the type has negative numbers. -/
def isSigned : IntegerType → Bool
  | .u8 | .u16 | .u32 | .u64 => false
  | .i8 | .i16 | .i32 | .i64 => true

/-- The number of bits. -/
def width : IntegerType → Nat
  | .u8 | .i8 => 8
  | .u16 | .i16 => 16
  | .u32 | .i32 => 32
  | .u64 | .i64 => 64

/-- The number of bit patterns. -/
def modulus (type : IntegerType) : Nat := 2 ^ type.width

/-- The bit pattern of all ones. -/
def mask (type : IntegerType) : Nat := type.modulus - 1

/-- The smallest number. -/
def minimum : IntegerType → Int
  | .u8 | .u16 | .u32 | .u64 => 0
  | .i8 => -2 ^ 7
  | .i16 => -2 ^ 15
  | .i32 => -2 ^ 31
  | .i64 => -2 ^ 63

/-- The largest number. -/
def maximum : IntegerType → Int
  | .u8 => 2 ^ 8 - 1
  | .u16 => 2 ^ 16 - 1
  | .u32 => 2 ^ 32 - 1
  | .u64 => 2 ^ 64 - 1
  | .i8 => 2 ^ 7 - 1
  | .i16 => 2 ^ 15 - 1
  | .i32 => 2 ^ 31 - 1
  | .i64 => 2 ^ 63 - 1

/-- The signed type of the same width. -/
def toSigned : IntegerType → IntegerType
  | .u8 | .i8 => .i8
  | .u16 | .i16 => .i16
  | .u32 | .i32 => .i32
  | .u64 | .i64 => .i64

/-- The unsigned type of the same width. -/
def toUnsigned : IntegerType → IntegerType
  | .u8 | .i8 => .u8
  | .u16 | .i16 => .u16
  | .u32 | .i32 => .u32
  | .u64 | .i64 => .u64

/-- Whether a whole number lies in the range of the type. -/
def Holds (type : IntegerType) (n : Int) : Prop := type.minimum ≤ n ∧ n ≤ type.maximum

instance (type : IntegerType) (n : Int) : Decidable (type.Holds n) :=
  inferInstanceAs (Decidable (_ ∧ _))

/-- The number of the type's range that is congruent to the argument modulo `2 ^ width`. -/
def wrap (type : IntegerType) (n : Int) : Int :=
  if type.isSigned then n.bmod type.modulus else n % type.modulus

theorem wrap_inRange (type : IntegerType) (n : Int) : type.Holds (type.wrap n) := by
  cases type <;> simp only [Holds, wrap, isSigned, modulus, width, minimum, maximum] <;>
    constructor <;> simp [Int.bmod_def] <;> omega

theorem wrap_eq_self {type : IntegerType} {n : Int} (h : type.Holds n) : type.wrap n = n := by
  cases type <;>
    simp_all only [Holds, wrap, isSigned, modulus, width, minimum, maximum, Int.bmod_def] <;>
    simp <;> omega

/-- No type holds a number of more than 64 binary digits. -/
theorem natAbs_le_of_holds {type : IntegerType} {n : Int} (h : type.Holds n) :
    n.natAbs ≤ 2 ^ 64 := by
  cases type <;> simp only [Holds, minimum, maximum] at h <;> omega

/-- The number of the type's range that is nearest to the argument. -/
def clamp (type : IntegerType) (n : Int) : Int := max type.minimum (min type.maximum n)

end IntegerType

/-! ## Number types -/

/-- The type of a number: an integer type or the double. -/
inductive NumberType
  /-- A fixed-width integer. -/
  | integer (type : IntegerType)
  /-- A double. -/
  | f64
  deriving DecidableEq, Repr

/-- Questions about a number type that only an integer type answers. -/
inductive NumberTypeFault
  /-- The double has no smallest or largest whole number. -/
  | noIntegerRange
  /-- The double has no unsigned type of its width. -/
  | noUnsignedCounterpart
  deriving DecidableEq, Repr

/-- The wording of a fault. -/
def NumberTypeFault.message : NumberTypeFault → String
  | .noIntegerRange => "f64 has no integer range"
  | .noUnsignedCounterpart => "f64 has no unsigned counterpart"

namespace NumberType

/-- All number types, integers first. -/
def all : List NumberType := IntegerType.all.map .integer ++ [.f64]

/-- The lower-case name, which is also the name of the cast to the type. -/
def name : NumberType → String
  | .integer type => type.name
  | .f64 => "f64"

/-- The type with a given name. -/
def ofName? (name : String) : Option NumberType := all.find? (·.name == name)

theorem ofName?_name (type : NumberType) : ofName? type.name = some type := by
  cases type with
  | integer type => cases type <;> decide
  | f64 => decide

theorem ofName?_eq_some_iff {name : String} {type : NumberType} :
    ofName? name = some type ↔ name = type.name := by
  constructor
  · intro h
    have hname := List.find?_some h
    exact (beq_iff_eq.mp hname).symm
  · rintro rfl
    exact type.ofName?_name

/-- Whether this is an integer type. -/
def isInteger : NumberType → Bool
  | .integer _ => true
  | .f64 => false

/-- Whether this is the double. -/
def isFloat : NumberType → Bool
  | .integer _ => false
  | .f64 => true

/-- Whether the type has negative numbers. -/
def isSigned : NumberType → Bool
  | .integer type => type.isSigned
  | .f64 => true

/-- The number of bits. -/
def width : NumberType → Nat
  | .integer type => type.width
  | .f64 => 64

/-- The bit pattern of all ones. -/
def mask (type : NumberType) : Nat := 2 ^ type.width - 1

/-- The smallest whole number of an integer type. -/
def minimum? : NumberType → Except NumberTypeFault Int
  | .integer type => .ok type.minimum
  | .f64 => .error .noIntegerRange

/-- The largest whole number of an integer type. -/
def maximum? : NumberType → Except NumberTypeFault Int
  | .integer type => .ok type.maximum
  | .f64 => .error .noIntegerRange

/-- The signed type of the same width; the double is its own. -/
def toSigned : NumberType → NumberType
  | .integer type => .integer type.toSigned
  | .f64 => .f64

/-- The unsigned type of the same width. -/
def toUnsigned? : NumberType → Except NumberTypeFault NumberType
  | .integer type => .ok (.integer type.toUnsigned)
  | .f64 => .error .noUnsignedCounterpart

end NumberType

end TypedCalc
