import ReplayLog.Text.Basic

/-! # Text without terminal controls

Messages go where no terminal reads them, so what would steer one is left out: every control
character that is not white space, and every sequence that an escape character begins. A control
sequence ends with its final character, a string with its terminator, and any sequence with a
cancelling character or with the escape character of the next one. White space within a sequence,
though not within a string, is shown, and so is all that follows it up to the next character that
plain text does not show. Only there the sequence goes on, unless a character above ASCII was among
what was shown. -/
namespace ReplayLog.Terminal

/-- What the next character belongs to. -/
inductive Mode
  /-- To plain text. -/
  | ground
  /-- To the start of a sequence, right behind its escape character. -/
  | escape
  /-- To a sequence of intermediate characters and a final one. -/
  | intermediate
  /-- To a control sequence. -/
  | control
  /-- To the start of a device string. -/
  | deviceStart
  /-- To the parameters of a device string. -/
  | deviceParameters
  /-- To the intermediate characters of a device string. -/
  | deviceIntermediates
  /-- To a string that the terminator ends. -/
  | string
  /-- To a string that a bell ends. -/
  | title
  deriving DecidableEq, Repr

def escapeCharacter : Char := '\x1b'

/-- The octet that ends a string, also as a part of a character above ASCII. -/
def terminator : UInt8 := 0x9C

/-- Whether the character cancels a sequence. -/
def cancels (c : Char) : Bool := c == '\x18' || c == '\x1a'

/-- Whether the character is white space of ASCII, the space apart. -/
def isLayout (c : Char) : Bool := c == '\t' || c == '\n' || c == '\x0c' || c == '\r'

/-- Whether the character is ASCII but no control character. -/
def isGraphic (c : Char) : Bool := ' ' ≤ c && c ≤ '~'

/-- Whether the character lies above ASCII. -/
def isExtended (c : Char) : Bool := '\x7f' < c

/-- Whether plain text shows the character. -/
def isShown (c : Char) : Bool := isLayout c || isGraphic c || isExtended c

def Mode.behindGraphic (m : Mode) (c : Char) : Mode :=
  match m with
  | ground => ground
  | escape =>
    if c < '0' then intermediate
    else if c == '[' then control
    else if c == ']' then title
    else if c == 'P' then deviceStart
    else if c == 'X' || c == '^' || c == '_' then string
    else ground
  | intermediate => if c < '0' then intermediate else ground
  | control => if c < '@' then control else ground
  | deviceStart =>
    if c < '0' then deviceIntermediates else if c < '@' then deviceParameters else string
  | deviceParameters =>
    if c < '0' then deviceIntermediates else if c < '<' then deviceParameters else string
  | deviceIntermediates => if c < '0' then deviceIntermediates else string
  | string => string
  | title => title

def Mode.next (m : Mode) (c : Char) : Mode :=
  if c == escapeCharacter then escape
  else if cancels c then ground
  else if isGraphic c then m.behindGraphic c
  else match m with
    | string => if (String.utf8EncodeChar c).contains terminator then ground else string
    | title => if c == '\x07' then ground else title
    | m => m

/-- Whether the character is shown in the mode. -/
def Mode.shows (m : Mode) (c : Char) : Bool :=
  match m with
  | ground => isShown c
  | escape | intermediate | control => isLayout c
  | deviceStart | deviceParameters | deviceIntermediates | string | title => false

/-- What came before the next character. -/
structure State where
  mode : Mode
  /-- Whether the last character was shown. -/
  showing : Bool

/-- The state before the first character. -/
def State.start : State := ⟨.ground, false⟩

/-- Whether the character is shown, and the state behind it. -/
def State.step (s : State) (c : Char) : Bool × State :=
  if s.showing && isShown c then (true, ⟨if isExtended c then .ground else s.mode, true⟩)
  else if !s.showing && s.mode.shows c then (true, ⟨s.mode.next c, true⟩)
  else (false, ⟨s.mode.next c, false⟩)

/-- The characters (in reverse) that are shown behind those shown before. -/
def showFrom (shown : Text) (s : State) : Text → Text
  | [] => shown
  | c :: t =>
    match s.step c with
    | (true, s) => showFrom (c :: shown) s t
    | (false, s) => showFrom shown s t

/-- The text as it is shown where there is no terminal. -/
def plain (t : Text) : Text := (showFrom [] .start t).reverse

end ReplayLog.Terminal
