import LineShell.CommandLine
import Mathlib.Data.List.Forall2

/-!
What is told of lines, word for word: the messages of errors, and the reports of outcomes. Main
statements: each error has the message that is worded here, and each outcome the report, and no
other.
-/

namespace LineShell

namespace Literal

/-- What messages call a token. -/
inductive Token.Called : Token → String → Prop where
  | integer (value : Int64) : Called (.integer value) ("Integer(" ++ integerText value ++ ")")
  | real (value : Double) : Called (.real value) ("Real(" ++ RealLayout.tagged.text value ++ ")")
  | yes : Called (.bool true) "Bool(true)"
  | no : Called (.bool false) "Bool(false)"
  | null : Called .null "Null"
  | undefined : Called .undefined "Undefined"
  | string (value : String) : Called (.string value) ("Str(" ++ Text.quoted value ++ ")")
  | identifier (name : String) :
      Called (.identifier name) ("Identifier(" ++ Text.quoted name ++ ")")
  | leftParen : Called .leftParen "LParen"
  | rightParen : Called .rightParen "RParen"
  | leftBracket : Called .leftBracket "LBracket"
  | rightBracket : Called .rightBracket "RBracket"
  | leftBrace : Called .leftBrace "LBrace"
  | rightBrace : Called .rightBrace "RBrace"
  | comma : Called .comma "Comma"
  | colon : Called .colon "Colon"

theorem token_called_iff (token : Token) (name : String) :
    token.Called name ↔ name = token.text := by
  constructor
  · intro called
    cases called <;> rfl
  · rintro rfl
    cases token with
    | bool value => cases value <;> constructor
    | _ => constructor

inductive Fault.Worded : Fault → String → Prop where
  | unrecognized (offset : Nat) :
      Worded (.unrecognized offset) ("unrecognized text at offset " ++ Nat.repr offset)
  | expectedValue : Worded .expectedValue "expected a value"
  | unexpected {token : Token} {name : String} (called : token.Called name) :
      Worded (.unexpected token) ("unexpected " ++ name)
  | unexpectedEnd : Worded .unexpectedEnd "unexpected end of literal"
  | invalidKey {token : Token} {name : String} (called : token.Called name) :
      Worded (.invalidKey token) ("invalid object key " ++ name)
  | expectedColon (key : String) :
      Worded (.expectedColon key) ("expected ':' after key '" ++ key ++ "'")

theorem fault_worded_iff (fault : Fault) (words : String) :
    fault.Worded words ↔ words = fault.message := by
  constructor
  · intro worded
    cases worded with
    | unexpected called | invalidKey called =>
        rw [(token_called_iff _ _).mp called]
        rfl
    | _ => rfl
  · rintro rfl
    cases fault with
    | unexpected token => exact .unexpected ((token_called_iff _ _).mpr rfl)
    | invalidKey token => exact .invalidKey ((token_called_iff _ _).mpr rfl)
    | _ => constructor

end Literal

inductive Cause.Worded : Cause → String → Prop where
  | unexpectedToken (c : Char) :
      Worded (.unexpectedToken c) ("Unexpected token: " ++ String.singleton c ++ ".")
  | unclosedDelimiter (c : Char) :
      Worded (.unclosedDelimiter c) ("Delimiter '" ++ String.singleton c ++ "' is never closed.")
  | memberNotFound (name : String) :
      Worded (.memberNotFound name) ("Member '" ++ name ++ "' not found.")
  | unknownReference (name : String) :
      Worded (.unknownReference name) ("Unknown reference '" ++ name ++ "'.")
  | malformedLiteral {fault : Literal.Fault} {details : String} (worded : fault.Worded details) :
      Worded (.malformedLiteral fault) ("Malformed literal: " ++ details ++ ".")
  | argumentCountMismatch (name : String) (expected found : Nat) :
      Worded (.argumentCountMismatch name expected found)
        ("'" ++ name ++ "' expects at least " ++ Nat.repr expected ++ " argument(s), found " ++
          Nat.repr found ++ ".")

/-- Every message begins with the position of the error. -/
inductive Error.Worded : Error → String → Prop where
  | placed {cause : Cause} {words : String} (worded : cause.Worded words) (position : Nat) :
      Worded ⟨cause, position⟩ ("Error at position " ++ Nat.repr position ++ ": " ++ words)

theorem cause_worded_iff (cause : Cause) (words : String) :
    cause.Worded words ↔ words = cause.message := by
  constructor
  · intro worded
    cases worded with
    | malformedLiteral details =>
        rw [(Literal.fault_worded_iff _ _).mp details]
        rfl
    | _ => rfl
  · rintro rfl
    cases cause with
    | malformedLiteral fault =>
        exact .malformedLiteral ((Literal.fault_worded_iff _ _).mpr rfl)
    | _ => constructor

theorem error_worded_iff (e : Error) (words : String) : e.Worded words ↔ words = e.message := by
  constructor
  · intro worded
    cases worded with
    | placed cause position =>
        rw [(cause_worded_iff _ _).mp cause]
        rfl
  · rintro rfl
    exact .placed ((cause_worded_iff _ _).mpr rfl) e.position

/-- How a token is shown where a line completes with it. -/
inductive Token.Displayed : Token → String → Prop where
  | space : Displayed (.lexeme .space) " "
  | name (text : String) : Displayed (.name text) text
  | capture (shape : Shape) (closing : Char) (text : String) :
      Displayed (.lexeme (.capture shape closing text)) text
  | operator (op : Operator) : Displayed (.operator op) op.symbol
  | reference (name : String) (shared : Shared) (binding : Binding) :
      Displayed (.reference name shared binding) name
  | function (callable : Callable) : Displayed (.function callable) callable.name
  | literal (value : Value) : Displayed (.literal value) value.text

theorem token_displayed_iff (token : Token) (text : String) :
    token.Displayed text ↔ text = token.text := by
  constructor
  · intro displayed
    cases displayed <;> rfl
  · rintro rfl
    cases token with
    | lexeme item => cases item <;> constructor
    | _ => constructor

/-- What is reported of a line. Nothing is, if it called or failed. -/
inductive Reported : Except Error Outcome → String → Prop where
  | completed {tokens : List Token} {texts : List String}
      (displayed : List.Forall₂ Token.Displayed tokens texts) :
      Reported (.ok (.completed tokens)) (String.join texts ++ "\n")
  | assigned (name : String) : Reported (.ok (.assigned name)) (name ++ " bound\n")
  | invoked (value : Value) : Reported (.ok (.invoked value)) ""
  | failed (e : Error) : Reported (.error e) ""

theorem tokens_displayed_iff (tokens : List Token) (texts : List String) :
    List.Forall₂ Token.Displayed tokens texts ↔ texts = tokens.map Token.text := by
  induction tokens generalizing texts with
  | nil => rw [List.forall₂_nil_left_iff, List.map_nil]
  | cons token rest induction =>
      rw [List.forall₂_cons_left_iff, List.map_cons]
      simp only [token_displayed_iff, induction]
      constructor
      · rintro ⟨_, _, rfl, rfl, rfl⟩
        rfl
      · rintro rfl
        exact ⟨_, _, rfl, rfl, rfl⟩

theorem reported_iff (outcome : Outcome) (text : String) :
    Reported (.ok outcome) text ↔ text = CommandLine.outcomeText outcome := by
  constructor
  · intro reported
    cases reported with
    | completed displayed =>
        rw [(tokens_displayed_iff _ _).mp displayed]
        rfl
    | assigned | invoked => rfl
  · rintro rfl
    cases outcome with
    | completed tokens => exact .completed ((tokens_displayed_iff _ _).mpr rfl)
    | assigned name => exact .assigned name
    | invoked value => exact .invoked value

end LineShell
