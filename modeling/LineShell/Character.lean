import LineShell.Operator

/-!
What single characters mean to the scanner. A character may have several roles: a quote both opens
and closes. Which of them counts depends on where the character stands.
-/

namespace LineShell

/-- What a delimited text is to be read as. -/
inductive Shape where
  | object
  | array
  | tuple
  | string
deriving DecidableEq

/-- A role together with what it needs. -/
inductive Role where
  | terminator
  | blank
  | opening
  | closing (partner : Char) (shape : Shape)
  | binary (op : Operator)
  | doubling (op : Operator)
  | unary (op : Operator)
  | digit (value : Nat)
deriving DecidableEq

/-- A role without what belongs to it. -/
inductive Kind where
  | terminator
  | blank
  | opening
  | closing
  | binary
  | doubling
  | unary
  | digit
deriving DecidableEq

def Role.kind : Role → Kind
  | terminator => .terminator
  | blank => .blank
  | opening => .opening
  | closing .. => .closing
  | binary _ => .binary
  | doubling _ => .doubling
  | unary _ => .unary
  | digit _ => .digit

/-- The operator that a role begins. -/
def Role.operator? : Role → Option Operator
  | binary op | doubling op | unary op => some op
  | _ => none

namespace Character

/-- All roles of a character. Outside delimiters the first one counts. -/
def roles : Char → List Role
  | ';' => [.terminator]
  | ' ' | '\n' | '\t' | '\r' => [.blank]
  | '{' | '[' | '(' => [.opening]
  | '}' => [.closing '{' .object]
  | ']' => [.closing '[' .array]
  | ')' => [.closing '(' .tuple]
  | '"' => [.opening, .closing '"' .string]
  | '\'' => [.opening, .closing '\'' .string]
  | '.' => [.binary .dot]
  | '=' => [.binary .assign]
  | '+' => [.binary .add]
  | '-' => [.binary .subtract]
  | '*' => [.binary .multiply]
  | '/' => [.binary .divide]
  | '%' => [.binary .modulo]
  | '&' => [.doubling .ampersand]
  | '|' => [.doubling .pipe]
  | '<' => [.doubling .less]
  | '>' => [.doubling .greater]
  | '!' => [.unary .bang]
  | '0' => [.digit 0]
  | '1' => [.digit 1]
  | '2' => [.digit 2]
  | '3' => [.digit 3]
  | '4' => [.digit 4]
  | '5' => [.digit 5]
  | '6' => [.digit 6]
  | '7' => [.digit 7]
  | '8' => [.digit 8]
  | '9' => [.digit 9]
  | _ => []

/-- The role outside delimiters. -/
def outside (c : Char) : Option Role := (roles c).head?

/-- The role between brackets, where only delimiters have one. -/
def enclosed (c : Char) : Option Role :=
  (roles c).find? fun role => role.kind == .opening || role.kind == .closing

/-- The role of a character under this kind. -/
def action? (kind : Kind) (c : Char) : Option Role :=
  (roles c).find? fun role => role.kind == kind

/-- The character that a closing delimiter closes. -/
def partner? (c : Char) : Option Char :=
  (roles c).findSome? fun
    | .closing partner _ => some partner
    | _ => none

/-- The value of a digit. -/
def digit? (c : Char) : Option Nat :=
  (roles c).findSome? fun
    | .digit value => some value
    | _ => none

/-- A quote closes itself. -/
def isQuote (c : Char) : Bool := partner? c == some c

/-- Where a character stands. -/
inductive Context where
  | outside
  | enclosed
  | quoted (quote : Char)
deriving DecidableEq

/-- The kind of a character where it stands. Within quotes only the same quote has one. -/
def classify (context : Context) (c : Char) : Option Kind :=
  match context with
  | .outside => (outside c).map Role.kind
  | .enclosed => (enclosed c).map Role.kind
  | .quoted quote => if c = quote then some .closing else none

end Character
end LineShell
