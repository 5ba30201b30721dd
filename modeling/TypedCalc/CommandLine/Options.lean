import TypedCalc.Text.Blank
import TypedCalc.Text.DecimalDigit
import TypedCalc.Text.Numeral

/-!
# Options

The options of the command line.  An option is a word that starts with a dash; one that takes a
value has it attached or as the next word.  A long name can be shortened as long as it stays
unambiguous, and short options can be written together after one dash.

A word that starts with a dash is still an argument if it is a negative number or has a space in
it, so that `-5` and `-5 + 3` can be values.  The program takes no arguments besides the values of
options, so every other word is a mistake.
-/

namespace TypedCalc.CommandLine

/-! ## Switches -/

/-- The switches that can be given. -/
inductive Switch
  /-- What the program is for. -/
  | help
  /-- The expression to evaluate. -/
  | expression
  /-- The file that holds the expression. -/
  | file
  /-- Answers are lists of items for a launcher. -/
  | launcher
  /-- The configuration file. -/
  | configuration
  /-- The history file. -/
  | historyFile
  /-- How many results are kept. -/
  | historySize
  /-- The history is neither read nor written. -/
  | noHistory
  /-- Where log files are written. -/
  | logDirectory
  /-- More is reported. -/
  | verbose
  deriving DecidableEq, Repr

namespace Switch

/-- All switches. -/
def all : List Switch :=
  [.help, .expression, .file, .launcher, .configuration, .historyFile, .historySize, .noHistory,
   .logDirectory, .verbose]

/-- The long name of a switch, after its two dashes. -/
def longName : Switch → List Char
  | .help => "help".toList
  | .expression => "expr".toList
  | .file => "file".toList
  | .launcher => "alfred".toList
  | .configuration => "config".toList
  | .historyFile => "history-file".toList
  | .historySize => "history-size".toList
  | .noHistory => "no-history".toList
  | .logDirectory => "log-dir".toList
  | .verbose => "verbose".toList

/-- The letter of a switch that has one. -/
def letter? : Switch → Option Char
  | .help => some 'h'
  | .expression => some 'e'
  | .file => some 'f'
  | .verbose => some 'v'
  | _ => none

/-- Whether a switch comes with a value. -/
def takesValue : Switch → Bool
  | .expression | .file | .configuration | .historyFile | .historySize | .logDirectory => true
  | .help | .launcher | .noHistory | .verbose => false

/-- The switch of a letter. -/
def ofLetter? (letter : Char) : Option Switch :=
  all.find? fun switch => switch.letter? == some letter

/-- The switch of a whole long name. -/
def ofLongName? (name : List Char) : Option Switch :=
  all.find? fun switch => switch.longName == name

/-- The switches whose long names start with a text. -/
def abbreviated (start : List Char) : List Switch :=
  all.filter fun switch => start.isPrefixOf switch.longName

end Switch

/-! ## Words -/

/-- What a word of the command line is. -/
inductive Word
  /-- A value or a stray word. -/
  | argument (text : String)
  /-- A switch by its long name, with the value attached to it. -/
  | long (switch : Switch) (attached : Option (List Char))
  /-- A switch by its letter, with what follows the letter in the same word. -/
  | short (switch : Switch) (attached : List Char)
  /-- Two dashes: only arguments follow. -/
  | separator
  /-- The name of no switch. -/
  | unknown (text : String)
  /-- The start of the names of several switches. -/
  | ambiguous (text : String)
  deriving DecidableEq, Repr

/-- Whether a word is a negative number: decimal digits after the dash, or a point among them
that is not the last. -/
def isNegativeNumber : List Char → Bool
  | '-' :: rest =>
    let body := if rest.getLast? = some '\n' then rest.dropLast else rest
    match body.dropWhile Text.isDecimalDigit with
    | [] => !body.isEmpty
    | '.' :: fraction => !fraction.isEmpty && fraction.all Text.isDecimalDigit
    | _ => false
  | _ => false

/-- What a word is that starts with a dash and is the name of no switch. -/
def Word.ofNameless (cs : List Char) : Word :=
  if isNegativeNumber cs || cs.contains ' ' then .argument (String.ofList cs)
  else .unknown (String.ofList cs)

/-- What a word is that starts with two dashes, given the text after them. -/
def Word.ofLong (name : List Char) : Word :=
  let start := name.takeWhile (· != '=')
  let attached := if name.contains '=' then some (name.drop (start.length + 1)) else none
  match Switch.ofLongName? start, Switch.abbreviated start with
  | some switch, _ => .long switch attached
  | none, [switch] => .long switch attached
  | none, [] => Word.ofNameless ('-' :: '-' :: name)
  | none, _ => .ambiguous (String.ofList ('-' :: '-' :: name))

/-- What a word is. -/
def Word.ofText (text : String) : Word :=
  match text.toList with
  | ['-', '-'] => .separator
  | '-' :: '-' :: name => Word.ofLong name
  | '-' :: letter :: attached =>
    match Switch.ofLetter? letter with
    | some switch => .short switch attached
    | none => Word.ofNameless ('-' :: letter :: attached)
  | _ => .argument text

/-- The words of a command line: after two dashes all of them are arguments. -/
def words : List String → List Word
  | [] => []
  | text :: rest =>
    match Word.ofText text with
    | .separator => .separator :: rest.map .argument
    | word => word :: words rest

/-! ## Options -/

/-- What the program is asked to do. -/
structure Options where
  /-- The expression to evaluate. -/
  expression : Option String := none
  /-- The file that holds the expression. -/
  file : Option String := none
  /-- Whether answers are lists of items for a launcher. -/
  launcher : Bool := false
  /-- The configuration file. -/
  configuration : String := "~/.clc/config.yaml"
  /-- The history file, instead of the configured one. -/
  historyFile : Option String := none
  /-- How many results are kept, instead of the configured number. -/
  historySize : Option Int := none
  /-- Whether the history is neither read nor written. -/
  noHistory : Bool := false
  /-- Where log files are written, instead of the configured directory. -/
  logDirectory : Option String := none
  /-- Whether more is reported. -/
  verbose : Bool := false
  deriving DecidableEq, Repr

/-- Why a command line is of no use. -/
inductive Misuse
  /-- A name is the start of several names. -/
  | ambiguous (text : String)
  /-- A switch comes without its value. -/
  | missingValue (switch : Switch)
  /-- A switch that takes no value has one attached. -/
  | unexpectedValue (switch : Switch)
  /-- The expression is given in two ways. -/
  | twoExpressions
  /-- The size of the history is not a whole number. -/
  | notAWholeNumber (text : String)
  /-- Words are left over. -/
  | leftOver (text : List String)
  deriving DecidableEq, Repr

/-- The wording of a mistake. -/
def Misuse.message : Misuse → String
  | .ambiguous text => "ambiguous option: " ++ text
  | .missingValue switch => "option --" ++ String.ofList switch.longName ++ ": expected a value"
  | .unexpectedValue switch => "option --" ++ String.ofList switch.longName ++ ": takes no value"
  | .twoExpressions => "options --expr and --file exclude each other"
  | .notAWholeNumber text => "not a whole number: " ++ text
  | .leftOver texts => "unrecognized arguments: " ++ String.intercalate " " texts

/-- What reading a command line comes to. -/
inductive Request
  /-- The program is to say what it is for. -/
  | help
  /-- The program is to run. -/
  | run (options : Options)
  deriving DecidableEq, Repr

/-- Whether a text consists of digits with single underscores between them. -/
def isGrouped : List Char → Bool
  | [] => false
  | [c] => c.isDigit
  | c :: '_' :: rest => c.isDigit && isGrouped rest
  | c :: rest => c.isDigit && isGrouped rest

/-- The whole number that a word denotes, in decimal digits of any script; padding around it does
not count. -/
def wholeNumber? (text : String) : Option Int :=
  let cs := Text.toAsciiDigits (Text.trim text.toList)
  let body := match cs with
    | '-' :: rest => rest
    | '+' :: rest => rest
    | cs => cs
  if isGrouped body then
    let n : Int := Numeral.read 10 (body.filter (· != '_'))
    some (if cs.head? = some '-' then -n else n)
  else none

namespace Options

/-- Options with a switch that takes no value. -/
def turnOn (options : Options) : Switch → Options
  | .launcher => { options with launcher := true }
  | .noHistory => { options with noHistory := true }
  | .verbose => { options with verbose := true }
  | _ => options

/-- Options with the value of a switch. -/
def assign (options : Options) (value : String) : Switch → Except Misuse Options
  | .expression =>
    if options.file.isSome then .error .twoExpressions
    else .ok { options with expression := some value }
  | .file =>
    if options.expression.isSome then .error .twoExpressions
    else .ok { options with file := some value }
  | .configuration => .ok { options with configuration := value }
  | .historyFile => .ok { options with historyFile := some value }
  | .historySize =>
    match wholeNumber? value with
    | some n => .ok { options with historySize := some n }
    | none => .error (.notAWholeNumber value)
  | .logDirectory => .ok { options with logDirectory := some value }
  | _ => .ok options

end Options

/-- What the letters of one word ask for: the switches without a value, and then a switch that
takes one with the part attached to it, or letters that are left over. -/
structure Cluster where
  /-- The switches without a value. -/
  plain : List Switch
  /-- The switch that takes a value, with the value if it is attached. -/
  valued : Option (Switch × Option (List Char)) := none
  /-- What is left over. -/
  unknown : Option (List Char) := none

/-- The value attached to a letter: an equals sign in front of it does not count. -/
def attachedValue : List Char → Option (List Char)
  | [] => none
  | '=' :: rest => some rest
  | cs => some cs

/-- The switches of the letters of one word. -/
def Cluster.ofLetters (switch : Switch) : List Char → Except Misuse Cluster
  | [] =>
    .ok (if switch.takesValue then ⟨[], some (switch, none), none⟩ else ⟨[switch], none, none⟩)
  | c :: rest =>
    if switch.takesValue then .ok ⟨[], some (switch, attachedValue (c :: rest)), none⟩
    else if c = '=' ∨ c = '-' then .error (.unexpectedValue switch)
    else match Switch.ofLetter? c with
      | none => .ok ⟨[switch], none, some ('-' :: c :: rest)⟩
      | some next => do
        let cluster ← Cluster.ofLetters next rest
        return { cluster with plain := switch :: cluster.plain }

/-- A command line while it is being read. -/
structure Progress where
  /-- The options so far. -/
  options : Options := {}
  /-- The words that belong nowhere. -/
  leftOver : List String := []

/-- The words read in order, the last step of `Request.ofArguments`. -/
def read (progress : Progress) : List Word → Except Misuse Request
  | [] =>
    if progress.leftOver.isEmpty then .ok (.run progress.options)
    else .error (.leftOver progress.leftOver)
  | .argument text :: rest =>
    read { progress with leftOver := progress.leftOver ++ [text] } rest
  | .unknown text :: rest =>
    read { progress with leftOver := progress.leftOver ++ [text] } rest
  | .separator :: rest => read { progress with leftOver := progress.leftOver ++ ["--"] } rest
  | .ambiguous text :: _ => .error (.ambiguous text)
  | .long switch attached :: rest =>
    if switch.takesValue then
      match attached, rest with
      | some value, rest => do
        let options ← progress.options.assign (String.ofList value) switch
        read { progress with options := options } rest
      | none, .argument value :: rest => do
        let options ← progress.options.assign value switch
        read { progress with options := options } rest
      | none, _ => .error (.missingValue switch)
    else if attached.isSome then .error (.unexpectedValue switch)
    else if switch = .help then .ok .help
    else read { progress with options := progress.options.turnOn switch } rest
  | .short switch attached :: rest =>
    match Cluster.ofLetters switch attached, rest with
    | .error cause, _ => .error cause
    | .ok ⟨plain, none, unknown⟩, rest =>
      if plain.contains .help then .ok .help
      else
        let stray := unknown.toList.map String.ofList
        read ⟨plain.foldl Options.turnOn progress.options, progress.leftOver ++ stray⟩ rest
    | .ok ⟨plain, some (switch, some value), _⟩, rest =>
      if plain.contains .help then .ok .help
      else do
        let options ←
          (plain.foldl Options.turnOn progress.options).assign (String.ofList value) switch
        read { progress with options := options } rest
    | .ok ⟨plain, some (switch, none), _⟩, .argument value :: rest =>
      if plain.contains .help then .ok .help
      else do
        let options ← (plain.foldl Options.turnOn progress.options).assign value switch
        read { progress with options := options } rest
    | .ok ⟨_, some (switch, none), _⟩, _ => .error (.missingValue switch)

/-- What a command line asks for.  A name that could be several is a mistake wherever it
stands. -/
def Request.ofArguments (arguments : List String) : Except Misuse Request :=
  let words := words arguments
  let ambiguous := words.findSome? fun word => match word with
    | .ambiguous text => some text
    | _ => none
  match ambiguous with
  | some text => .error (.ambiguous text)
  | none => read {} words

end TypedCalc.CommandLine
