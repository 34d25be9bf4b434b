/-
# Gapless.CommandLine.Terminal -- text without terminal control

A message quotes what the user wrote, and that may hold characters which a
terminal obeys instead of showing them: control characters, and the sequences that
an escape opens.  `plain` keeps what is shown, and of the control characters the
four that lay a text out.

What a character does depends on the sequence it stands in, its `Mode`:

* an escape opens a sequence and a cancel or a substitute ends one, everywhere;
* after an escape come blanks or punctuation, if any, and one more character;
  `[`, `]` and a few letters in its place open the longer sequences;
* a layout character ends a sequence and is kept, and other control characters are
  lost without ending it -- but a command and whatever is meant for a device are
  closed to both;
* a sequence is read by bytes, and a character outside ASCII is lost in it; only the
  string terminator, `0x9c`, is looked for among its bytes, and only in a string.
-/

namespace Gapless.CommandLine.Terminal

set_option autoImplicit false

/-! ## Characters -/

/-- Tabs, line ends and page ends. -/
def isLayout (c : Char) : Bool :=
  c == '\t' || c == '\n' || c == '\x0c' || c == '\r'

def isControl (c : Char) : Bool :=
  c.toNat < 0x20 || c == '\x7f'

def Shown (c : Char) : Prop := isControl c = true → isLayout c = true

instance (c : Char) : Decidable (Shown c) :=
  inferInstanceAs (Decidable (_ → _))

/-- The string terminator is one of the character's bytes. -/
def holdsTerminator (c : Char) : Bool :=
  (String.utf8EncodeChar c).contains 0x9c

/-! ## Sequences -/

inductive Mode where
  /-- Outside every sequence. -/
  | ground
  | escape
  /-- After an escape and blanks or punctuation. -/
  | intermediate
  /-- After an escape and `[`, until a letter or the like. -/
  | control
  /-- After an escape and `]`, until a bell. -/
  | command
  /-- After an escape and `P`. -/
  | device
  /-- In the numbers that come before the name of what a device shall do. -/
  | parameters
  /-- After blanks or punctuation behind those numbers. -/
  | punctuated
  /-- A text that is not for the screen, until a string terminator. -/
  | string
  deriving DecidableEq

namespace Mode

/-- The mode after a character that is neither a control character nor outside ASCII. -/
def after : Mode → Char → Mode
  | .escape, '[' => .control
  | .escape, ']' => .command
  | .escape, 'P' => .device
  | .escape, 'X' | .escape, '^' | .escape, '_' => .string
  | .escape, c | .intermediate, c => if c < '0' then .intermediate else .ground
  | .control, c => if c < '@' then .control else .ground
  | .device, c => if c < '0' then .punctuated else if c < '@' then .parameters else .string
  | .parameters, c => if c < '0' then .punctuated else if c < '<' then .parameters else .string
  | .punctuated, c => if c < '0' then .punctuated else .string
  | mode, _ => mode

/-- The mode after a character outside ASCII. -/
def beyond (mode : Mode) (c : Char) : Mode :=
  if mode = .string ∧ holdsTerminator c then .ground else mode

/-- The mode after a character, and what is shown for the character. -/
def step (mode : Mode) (c : Char) : Mode × List Char :=
  if c = '\x1b' then (.escape, [])
  else if c = '\x18' ∨ c = '\x1a' then (.ground, [])
  else if 0x80 ≤ c.toNat then (mode.beyond c, if mode = .ground then [c] else [])
  else
    match mode with
    | .ground => (.ground, if Shown c then [c] else [])
    | .command => (if c = '\x07' then .ground else .command, [])
    | .escape | .intermediate | .control =>
        if isLayout c then (.ground, [c])
        else if isControl c then (mode, [])
        else (mode.after c, [])
    | .device | .parameters | .punctuated | .string =>
        (if isControl c then mode else mode.after c, [])

end Mode

/-! ## Texts -/

/-- What is shown of a text that is read from a mode on. -/
def stripFrom (mode : Mode) : List Char → List Char
  | [] => []
  | c :: rest => (mode.step c).2 ++ stripFrom (mode.step c).1 rest

def strip (text : List Char) : List Char := stripFrom .ground text

/-- A text as a terminal shows it. -/
def plain (text : String) : String := String.ofList (strip text.toList)

end Gapless.CommandLine.Terminal
