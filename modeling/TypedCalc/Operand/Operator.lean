/-!
# Operators

Four prefix operators and eighteen infix operators, with their symbols.  The infix operators
form nine levels of precedence; every level groups to the left, and prefix operators bind more
tightly than all of them.

A symbol can stand for both kinds: `+` and `-` do.
-/

namespace TypedCalc

/-- A prefix operator. -/
inductive PrefixOperator
  | negate | identity | complement | not
  deriving DecidableEq, Repr

/-- An operator of arithmetic. -/
inductive ArithmeticOperator
  | add | subtract | multiply | divide | remainder
  deriving DecidableEq, Repr

/-- An operator on bit patterns. -/
inductive BitwiseOperator
  | and | or | xor | shiftLeft | shiftRight
  deriving DecidableEq, Repr

/-- A comparison. -/
inductive ComparisonOperator
  | equal | notEqual | less | greater | lessEqual | greaterEqual
  deriving DecidableEq, Repr

/-- An operator on truth values. -/
inductive LogicalOperator
  | and | or
  deriving DecidableEq, Repr

/-- An infix operator. -/
inductive InfixOperator
  | arithmetic (op : ArithmeticOperator)
  | bitwise (op : BitwiseOperator)
  | comparison (op : ComparisonOperator)
  | logical (op : LogicalOperator)
  deriving DecidableEq, Repr

namespace PrefixOperator

/-- All prefix operators. -/
def all : List PrefixOperator := [.negate, .complement, .not, .identity]

/-- The symbol of a prefix operator. -/
def symbol : PrefixOperator → String
  | .negate => "-"
  | .identity => "+"
  | .complement => "~"
  | .not => "!"

/-- The prefix operator with a symbol. -/
def ofSymbol? (symbol : String) : Option PrefixOperator := all.find? (·.symbol == symbol)

theorem ofSymbol?_symbol (op : PrefixOperator) : ofSymbol? op.symbol = some op := by
  cases op <;> decide

theorem ofSymbol?_eq_some_iff {symbol : String} {op : PrefixOperator} :
    ofSymbol? symbol = some op ↔ symbol = op.symbol := by
  constructor
  · intro h
    have hsymbol := List.find?_some h
    exact (beq_iff_eq.mp hsymbol).symm
  · rintro rfl
    exact op.ofSymbol?_symbol

end PrefixOperator

namespace InfixOperator

/-- The symbol of an infix operator. -/
def symbol : InfixOperator → String
  | .arithmetic .add => "+"
  | .arithmetic .subtract => "-"
  | .arithmetic .multiply => "*"
  | .arithmetic .divide => "/"
  | .arithmetic .remainder => "%"
  | .bitwise .and => "&"
  | .bitwise .or => "|"
  | .bitwise .xor => "^"
  | .bitwise .shiftLeft => "<<"
  | .bitwise .shiftRight => ">>"
  | .comparison .equal => "=="
  | .comparison .notEqual => "!="
  | .comparison .less => "<"
  | .comparison .greater => ">"
  | .comparison .lessEqual => "<="
  | .comparison .greaterEqual => ">="
  | .logical .and => "&&"
  | .logical .or => "||"

/-- The levels of precedence, loosest first. -/
def levels : List (List InfixOperator) :=
  [[.logical .or],
   [.logical .and],
   [.bitwise .or],
   [.bitwise .xor],
   [.bitwise .and],
   [.comparison .equal, .comparison .notEqual, .comparison .less, .comparison .greater,
    .comparison .lessEqual, .comparison .greaterEqual],
   [.bitwise .shiftLeft, .bitwise .shiftRight],
   [.arithmetic .add, .arithmetic .subtract],
   [.arithmetic .multiply, .arithmetic .divide, .arithmetic .remainder]]

/-- All infix operators, loosest first. -/
def all : List InfixOperator := levels.flatten

/-- The number of levels. -/
def levelCount : Nat := 9

theorem levelCount_eq : levelCount = 9 := rfl

/-- The level of an operator; a higher level binds more tightly. -/
def level : InfixOperator → Nat
  | .logical .or => 0
  | .logical .and => 1
  | .bitwise .or => 2
  | .bitwise .xor => 3
  | .bitwise .and => 4
  | .comparison _ => 5
  | .bitwise .shiftLeft | .bitwise .shiftRight => 6
  | .arithmetic .add | .arithmetic .subtract => 7
  | .arithmetic .multiply | .arithmetic .divide | .arithmetic .remainder => 8

/-- An operator stands in the row of the table that its level counts to. -/
theorem mem_levels_level (op : InfixOperator) : ∃ row ∈ levels[op.level]?, op ∈ row := by
  cases op with
  | arithmetic op => cases op <;> simp [levels, level]
  | bitwise op => cases op <;> simp [levels, level]
  | comparison op => cases op <;> simp [levels, level]
  | logical op => cases op <;> simp [levels, level]

theorem level_of_mem_levels {level : Nat} {row : List InfixOperator} {op : InfixOperator}
    (hrow : levels[level]? = some row) (hmem : op ∈ row) : op.level = level := by
  have hall : ∀ entry ∈ levels.zipIdx, ∀ op ∈ entry.1, op.level = entry.2 := by decide
  exact hall (row, level) (List.mk_mem_zipIdx_iff_getElem?.mpr hrow) op hmem

/-- The infix operator with a symbol. -/
def ofSymbol? (symbol : String) : Option InfixOperator := all.find? (·.symbol == symbol)

theorem ofSymbol?_symbol (op : InfixOperator) : ofSymbol? op.symbol = some op := by
  cases op with
  | arithmetic op => cases op <;> decide
  | bitwise op => cases op <;> decide
  | comparison op => cases op <;> decide
  | logical op => cases op <;> decide

theorem ofSymbol?_eq_some_iff {symbol : String} {op : InfixOperator} :
    ofSymbol? symbol = some op ↔ symbol = op.symbol := by
  constructor
  · intro h
    have hsymbol := List.find?_some h
    exact (beq_iff_eq.mp hsymbol).symm
  · rintro rfl
    exact op.ofSymbol?_symbol

end InfixOperator

/-! ## Symbols -/

/-- What an operator symbol in a text can stand for: an infix operator, which `+` and `-` also
lend to prefix position, or one of the two operators that are only ever prefix. -/
inductive OperatorSymbol
  | between (op : InfixOperator)
  | complement
  | not
  deriving DecidableEq, Repr

namespace OperatorSymbol

/-- The text of a symbol. -/
def text : OperatorSymbol → String
  | .between op => op.symbol
  | .complement => "~"
  | .not => "!"

/-- The infix operator that a symbol stands for. -/
def infix? : OperatorSymbol → Option InfixOperator
  | .between op => some op
  | .complement => none
  | .not => none

/-- The prefix operator that a symbol stands for. -/
def prefix? : OperatorSymbol → Option PrefixOperator
  | .between (.arithmetic .subtract) => some .negate
  | .between (.arithmetic .add) => some .identity
  | .complement => some .complement
  | .not => some .not
  | .between _ => none

theorem infix?_eq_some_iff {symbol : OperatorSymbol} {op : InfixOperator} :
    symbol.infix? = some op ↔ symbol.text = op.symbol := by
  have hsymbol : symbol.infix? = InfixOperator.ofSymbol? symbol.text := by
    cases symbol with
    | between op => exact op.ofSymbol?_symbol.symm
    | complement | not => decide
  rw [hsymbol, InfixOperator.ofSymbol?_eq_some_iff]

theorem prefix?_eq_some_iff {symbol : OperatorSymbol} {op : PrefixOperator} :
    symbol.prefix? = some op ↔ symbol.text = op.symbol := by
  have hsymbol : symbol.prefix? = PrefixOperator.ofSymbol? symbol.text := by
    cases symbol with
    | between op =>
      cases op with
      | arithmetic op => cases op <;> decide
      | bitwise op => cases op <;> decide
      | comparison op => cases op <;> decide
      | logical op => cases op <;> decide
    | complement | not => decide
  rw [hsymbol, PrefixOperator.ofSymbol?_eq_some_iff]

/-- All symbols with their characters, the longer ones first, so that the first one that a text
starts with is the longest. -/
def table : List (List Char × OperatorSymbol) :=
  [(['&', '&'], .between (.logical .and)),
   (['|', '|'], .between (.logical .or)),
   (['<', '<'], .between (.bitwise .shiftLeft)),
   (['>', '>'], .between (.bitwise .shiftRight)),
   (['=', '='], .between (.comparison .equal)),
   (['!', '='], .between (.comparison .notEqual)),
   (['<', '='], .between (.comparison .lessEqual)),
   (['>', '='], .between (.comparison .greaterEqual)),
   (['+'], .between (.arithmetic .add)),
   (['-'], .between (.arithmetic .subtract)),
   (['*'], .between (.arithmetic .multiply)),
   (['/'], .between (.arithmetic .divide)),
   (['%'], .between (.arithmetic .remainder)),
   (['&'], .between (.bitwise .and)),
   (['|'], .between (.bitwise .or)),
   (['^'], .between (.bitwise .xor)),
   (['~'], .complement),
   (['!'], .not),
   (['<'], .between (.comparison .less)),
   (['>'], .between (.comparison .greater))]

/-- The longest symbol that a text starts with, and its length. -/
def match? (cs : List Char) : Option (OperatorSymbol × Nat) :=
  (table.find? fun entry => entry.1.isPrefixOf cs).map fun entry => (entry.2, entry.1.length)

end OperatorSymbol

end TypedCalc
