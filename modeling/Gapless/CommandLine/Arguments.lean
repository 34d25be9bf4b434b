/-
# Gapless.CommandLine.Arguments -- reading the arguments

Arguments are taken one by one.  A value is not looked at when it is read but when
the next argument makes clear that it is complete (`Scan.resolve`), or at the end;
so of two faults the earlier one is not always the one complained about.  An
unknown argument and a value attached to a flag are complained about at once.
Asking for help or for the version ends the reading, after the value before it was
looked at.

* `--` makes all arguments after it positional;
* `--name` and `--name=value` are long options;
* `-abc` is a cluster of short options, where `o` takes the rest of the cluster or
  the next argument as its value;
* anything else is the value of the option before it, if that still lacks one, or
  else positional.  A single dash is such an argument.
-/
import Gapless.CommandLine.Options

namespace Gapless.CommandLine

set_option autoImplicit false

/-- Why there are no options to go by. -/
inductive Halt where
  | help
  | version
  | misuse (complaint : Complaint)
  deriving DecidableEq

/-! ## The shape of one argument -/

inductive Argument where
  | separator
  | long (name : String) (value : Option String)
  | cluster (flags : List Char)
  | plain
  deriving DecidableEq

namespace Argument

/-- Split at the first equals sign. -/
def splitValue (text : List Char) : String × Option String :=
  let name := text.takeWhile (· ≠ '=')
  (String.ofList name, match text.drop name.length with
    | [] => none
    | _ :: value => some (String.ofList value))

def ofChars : List Char → Argument
  | ['-', '-'] => .separator
  | '-' :: '-' :: rest => .long (splitValue rest).1 (splitValue rest).2
  | ['-'] => .plain
  | '-' :: flags => .cluster flags
  | _ => .plain

end Argument

/-! ## Reading -/

/-- How far the reading has come. -/
structure Scan where
  draft : Draft := {}
  /-- The field read last, with its value if it has one already. -/
  open? : Option (Field × Option String) := none
  /-- Whether all that follows is positional. -/
  positionalOnly : Bool := false
  deriving DecidableEq

namespace Scan

/-- Look at the value read last. -/
def resolve (scan : Scan) : Except Halt Scan :=
  match scan.open? with
  | none => .ok scan
  | some (field, text) =>
      match scan.draft.assign field text with
      | .error complaint => .error (.misuse complaint)
      | .ok draft => .ok { scan with draft, open? := none }

/-- A field whose value is to be looked at later, or still to come. -/
def hold (scan : Scan) (field : Field) (text : Option String) : Except Halt Scan :=
  scan.resolve.map ({ · with open? := some (field, text) })

/-- A field and its value in one argument. -/
def give (scan : Scan) (field : Field) (text : String) : Except Halt Scan :=
  scan.resolve.bind fun scan => resolve { scan with open? := some (field, some text) }

/-- Stop reading, unless the value before is at fault. -/
def stop (scan : Scan) (halt : Halt) : Except Halt Scan :=
  scan.resolve.bind fun _ => .error halt

def complain (complaint : Complaint) : Except Halt Scan := .error (.misuse complaint)

def long (scan : Scan) (name : String) (value : Option String) : Except Halt Scan :=
  let flag (halt : Halt) :=
    match value with
    | none => scan.stop halt
    | some value => complain (.unexpectedValue ("--" ++ name) value)
  match name with
  | "help" => flag .help
  | "version" => flag .version
  | _ =>
      match Field.ofName? name, value with
      | some field, some value => scan.give field value
      | some field, none => scan.hold field none
      | none, _ => complain (.unknown ("--" ++ name))

def cluster (scan : Scan) : List Char → Except Halt Scan
  | [] => .ok scan
  | 'h' :: _ => scan.stop .help
  | 'V' :: _ => scan.stop .version
  | ['o'] => scan.hold .output none
  | 'o' :: '=' :: value => scan.give .output (String.ofList value)
  | 'o' :: value => scan.give .output (String.ofList value)
  | flag :: _ => complain (.unknown (String.ofList ['-', flag]))

/-- Whether the input was given or is the value read last. -/
def hasInput (scan : Scan) : Bool :=
  .input ∈ scan.draft.given || scan.open?.any (·.1 = .input)

def positional (scan : Scan) (text : String) : Except Halt Scan :=
  if scan.hasInput then complain (.unknown text) else scan.hold .input (some text)

/-- An argument that is no option. -/
def plain (scan : Scan) (text : String) : Except Halt Scan :=
  match scan.open? with
  | some (field, none) => .ok { scan with open? := some (field, some text) }
  | _ => scan.positional text

def argument (scan : Scan) (text : String) : Except Halt Scan :=
  if scan.positionalOnly then scan.positional text
  else
    match Argument.ofChars text.toList with
    | .separator => .ok { scan with positionalOnly := true }
    | .long name value => scan.long name value
    | .cluster flags => scan.cluster flags
    | .plain => scan.plain text

end Scan

namespace Options

/-- The options that a list of arguments stands for. -/
def ofArguments (arguments : List String) : Except Halt Options :=
  (arguments.foldlM Scan.argument {}).bind fun scan =>
    scan.resolve.bind fun scan => scan.draft.finish.mapError .misuse

end Options

end Gapless.CommandLine
