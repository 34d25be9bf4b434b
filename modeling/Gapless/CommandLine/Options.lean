/-
# Gapless.CommandLine.Options -- what the command can be told

The command replays a file.  It has one positional argument and a handful of
options with values, each of which may be given once.  A `Draft` collects values as
they are read (`Draft.assign`); a `Complaint` is what is wrong with the arguments.
-/
import Gapless.CommandLine.Size
import Gapless.CommandLine.Terminal
import Gapless.Delivery
import Gapless.Limits

namespace Gapless.CommandLine

set_option autoImplicit false

/-! ## Options -/

structure Options where
  input : String := ""
  output : Option String := none
  chunkSize : Nat := 1024
  overlap : Nat := 0
  order : DeliveryOrder := .forward
  duplicateEvery : Option Nat := none
  readSize : Nat := 4096
  maxBufferedBytes : Option Nat := none
  maxSegments : Option Nat := none
  deriving DecidableEq

namespace Options

def plan (options : Options) : DeliveryPlan where
  chunkSize := options.chunkSize
  overlap := options.overlap
  order := options.order
  duplicateEvery := options.duplicateEvery

def limits (options : Options) : Limits where
  bytes := options.maxBufferedBytes
  segments := options.maxSegments

end Options

inductive Field where
  | input
  | output
  | chunkSize
  | overlap
  | order
  | duplicateEvery
  | readSize
  | maxBufferedBytes
  | maxSegments
  deriving DecidableEq

namespace Field

/-- How messages name an argument. -/
def label : Field → String
  | .input => "<INPUT>"
  | .output => "--output <OUTPUT>"
  | .chunkSize => "--chunk-size <CHUNK_SIZE>"
  | .overlap => "--overlap <OVERLAP>"
  | .order => "--order <ORDER>"
  | .duplicateEvery => "--duplicate-every <DUPLICATE_EVERY>"
  | .readSize => "--read-size <READ_SIZE>"
  | .maxBufferedBytes => "--max-buffered-bytes <MAX_BUFFERED_BYTES>"
  | .maxSegments => "--max-segments <MAX_SEGMENTS>"

/-- The option with a long name. -/
def ofName? : String → Option Field
  | "output" => some .output
  | "chunk-size" => some .chunkSize
  | "overlap" => some .overlap
  | "order" => some .order
  | "duplicate-every" => some .duplicateEvery
  | "read-size" => some .readSize
  | "max-buffered-bytes" => some .maxBufferedBytes
  | "max-segments" => some .maxSegments
  | _ => none

end Field

/-- How an order is written. -/
def orderName : DeliveryOrder → String
  | .forward => "forward"
  | .reverse => "reverse"
  | .interleaved => "interleaved"

def orderOfName? (name : String) : Option DeliveryOrder :=
  [DeliveryOrder.forward, .reverse, .interleaved].find? (orderName · == name)

/-! ## Complaints -/

inductive Complaint where
  | badSize (field : Field) (text : String) (fault : SizeFault)
  | badOrder (text : String)
  /-- No value was given, or an empty one where it cannot be empty. -/
  | missingValue (field : Field)
  | repeated (field : Field)
  | unknown (argument : String)
  /-- A value was attached to a flag that takes none. -/
  | unexpectedValue (flag value : String)
  | missingInput
  deriving DecidableEq

namespace Complaint

/-- What is wrong, in words; a part that the user wrote is shown as a terminal would. -/
def message : Complaint → String
  | .badSize field text fault =>
      "invalid value '" ++ Terminal.plain text ++ "' for '" ++ field.label ++ "': " ++ fault.message
  | .badOrder text =>
      "invalid value '" ++ Terminal.plain text ++ "' for '" ++ Field.order.label ++ "'"
  | .missingValue field => "a value is required for '" ++ field.label ++ "' but none was supplied"
  | .repeated field => "the argument '" ++ field.label ++ "' cannot be used multiple times"
  | .unknown argument => "unexpected argument '" ++ Terminal.plain argument ++ "' found"
  | .unexpectedValue flag value =>
      "unexpected value '" ++ Terminal.plain value ++ "' for '" ++ flag ++
        "' found; no more were expected"
  | .missingInput => "the following required arguments were not provided:"

end Complaint

/-! ## Drafts -/

/-- The options so far, and which of them were given. -/
structure Draft where
  options : Options := {}
  given : List Field := []
  deriving DecidableEq

namespace Draft

def size (field : Field) (text : String) : Except Complaint Nat :=
  (Size.ofText text).mapError (.badSize field text)

def positiveSize (field : Field) (text : String) : Except Complaint Nat :=
  (Size.positiveOfText text).mapError (.badSize field text)

def path (field : Field) (text : String) : Except Complaint String :=
  if text.isEmpty then .error (.missingValue field) else .ok text

def order (text : String) : Except Complaint DeliveryOrder :=
  if text.isEmpty then .error (.missingValue .order)
  else
    match orderOfName? text with
    | some order => .ok order
    | none => .error (.badOrder text)

/-- Options with a field set to what a text says. -/
def set (options : Options) (field : Field) (text : String) : Except Complaint Options :=
  match field with
  | .input => (path field text).map ({ options with input := · })
  | .output => (path field text).map ({ options with output := some · })
  | .chunkSize => (positiveSize field text).map ({ options with chunkSize := · })
  | .overlap => (size field text).map ({ options with overlap := · })
  | .order => (order text).map ({ options with order := · })
  | .duplicateEvery => (positiveSize field text).map ({ options with duplicateEvery := some · })
  | .readSize => (positiveSize field text).map ({ options with readSize := · })
  | .maxBufferedBytes =>
      (positiveSize field text).map ({ options with maxBufferedBytes := some · })
  | .maxSegments => (positiveSize field text).map ({ options with maxSegments := some · })

/-- Give a field a value.  A value must be there, for the first time, and say
something that the field can be. -/
def assign (draft : Draft) (field : Field) (text : Option String) : Except Complaint Draft :=
  match text with
  | none => .error (.missingValue field)
  | some text =>
      if field ∈ draft.given then .error (.repeated field)
      else (set draft.options field text).map fun options =>
        { options, given := draft.given ++ [field] }

/-- The options, once the input is known. -/
def finish (draft : Draft) : Except Complaint Options :=
  if .input ∈ draft.given then .ok draft.options else .error .missingInput

end Draft

end Gapless.CommandLine
