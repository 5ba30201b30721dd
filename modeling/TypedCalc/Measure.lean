import TypedCalc.Binary64.Arithmetic

/-!
# Units of measure

Sizes are counted in powers of 1024 bytes, and temperatures in degrees of three scales.  Units
of one category convert into each other and those of different categories do not.

A unit is written as a suffix directly after a number; Celsius also goes by the bare degree
sign.  `Measure.ofSuffix?` reads suffixes, `Measure.ofName?` full names.
-/

namespace TypedCalc

/-- What a unit measures. -/
inductive Category
  | size
  | temperature
  deriving DecidableEq, Repr

/-- The word for a category in messages. -/
def Category.name : Category → String
  | .size => "size"
  | .temperature => "temperature"

/-- A unit of size. -/
inductive SizeUnit
  | byte | kilobyte | megabyte | gigabyte | terabyte | petabyte
  deriving DecidableEq, Repr

namespace SizeUnit

/-- The power of 1024 bytes that the unit stands for. -/
def power : SizeUnit → Nat
  | .byte => 0
  | .kilobyte => 1
  | .megabyte => 2
  | .gigabyte => 3
  | .terabyte => 4
  | .petabyte => 5

/-- The number of bytes in one unit. -/
def scale (unit : SizeUnit) : Nat := 1024 ^ unit.power

theorem scale_pos (unit : SizeUnit) : 0 < unit.scale := Nat.pow_pos (by decide)

theorem scale_le (unit : SizeUnit) : unit.scale ≤ 2 ^ 50 := by
  cases unit <;> decide

/-- A number of these units as a number of bytes. -/
def toBytes (unit : SizeUnit) (x : Binary64) : Binary64 := x.mul (.ofInt unit.scale)

/-- A number of bytes as a number of these units. -/
def ofBytes (unit : SizeUnit) (x : Binary64) : Binary64 := x.div (.ofInt unit.scale)

end SizeUnit

/-- A temperature scale. -/
inductive TemperatureUnit
  | celsius | fahrenheit | kelvin
  deriving DecidableEq, Repr

namespace TemperatureUnit

/-- The double nearest to 273.15, the zero of the Celsius scale in kelvin. -/
def celsiusZero : Binary64 := .ofRatio false 27315 100

/-- A temperature on this scale in degrees Celsius. -/
def toCelsius (unit : TemperatureUnit) (x : Binary64) : Binary64 :=
  match unit with
  | .celsius => x
  | .fahrenheit => ((x.sub (.ofInt 32)).mul (.ofInt 5)).div (.ofInt 9)
  | .kelvin => x.sub celsiusZero

/-- A temperature in degrees Celsius on this scale. -/
def ofCelsius (unit : TemperatureUnit) (x : Binary64) : Binary64 :=
  match unit with
  | .celsius => x
  | .fahrenheit => ((x.mul (.ofInt 9)).div (.ofInt 5)).add (.ofInt 32)
  | .kelvin => x.add celsiusZero

end TemperatureUnit

/-- A unit of measure. -/
inductive Measure
  /-- A number of bytes. -/
  | size (unit : SizeUnit)
  /-- A temperature. -/
  | temperature (unit : TemperatureUnit)
  deriving DecidableEq, Repr

namespace Measure

/-- All units in the order in which they are listed: smallest size first. -/
def all : List Measure :=
  [.size .byte, .size .kilobyte, .size .megabyte, .size .gigabyte, .size .terabyte,
   .size .petabyte, .temperature .celsius, .temperature .fahrenheit, .temperature .kelvin]

/-- What the unit measures. -/
def category : Measure → Category
  | .size _ => .size
  | .temperature _ => .temperature

/-- Whether the unit measures temperature. -/
def isTemperature : Measure → Bool
  | .size _ => false
  | .temperature _ => true

/-- Whether the unit measures size. -/
def isSize : Measure → Bool
  | .size _ => true
  | .temperature _ => false

/-- The full name. -/
def name : Measure → String
  | .size .byte => "byte"
  | .size .kilobyte => "kilobyte"
  | .size .megabyte => "megabyte"
  | .size .gigabyte => "gigabyte"
  | .size .terabyte => "terabyte"
  | .size .petabyte => "petabyte"
  | .temperature .celsius => "celsius"
  | .temperature .fahrenheit => "fahrenheit"
  | .temperature .kelvin => "kelvin"

/-- The symbol that is printed after a number. -/
def symbol : Measure → String
  | .size .byte => "B"
  | .size .kilobyte => "K"
  | .size .megabyte => "M"
  | .size .gigabyte => "G"
  | .size .terabyte => "T"
  | .size .petabyte => "P"
  | .temperature .celsius => "°C"
  | .temperature .fahrenheit => "°F"
  | .temperature .kelvin => "°K"

/-- The suffixes that stand for the unit after a number. -/
def suffixes (unit : Measure) : List String :=
  match unit with
  | .temperature .celsius => ["°", "°C"]
  | other => [other.symbol]

/-- The number of base units in one unit, where that is a whole number. -/
def scale : Measure → Nat
  | .size unit => unit.scale
  | .temperature _ => 1

/-- The unit that a suffix stands for. -/
def ofSuffix? (suffix : String) : Option Measure := all.find? (·.suffixes.contains suffix)

theorem mem_all (unit : Measure) : unit ∈ all := by
  cases unit with
  | size unit => cases unit <;> decide
  | temperature unit => cases unit <;> decide

/-- No suffix stands for two units. -/
theorem ofSuffix?_eq_some_iff {suffix : String} {unit : Measure} :
    ofSuffix? suffix = some unit ↔ suffix ∈ unit.suffixes := by
  constructor
  · intro h
    have hsuffix := List.find?_some h
    exact List.contains_iff_mem.mp hsuffix
  · intro h
    have hall : ∀ unit ∈ all, ∀ suffix ∈ unit.suffixes, ofSuffix? suffix = some unit := by decide
    exact hall unit unit.mem_all suffix h

/-- The unit with a given full name. -/
def ofName? (name : String) : Option Measure := all.find? (·.name == name)

/-- The units of a category in display order. -/
def ofCategory (category : Category) : List Measure := all.filter (·.category == category)

end Measure

end TypedCalc
