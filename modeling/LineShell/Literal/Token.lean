import LineShell.Number.Layout
import LineShell.Text.Quoted

/-!
The tokens of composite literals, and how a message names them.
-/

namespace LineShell.Literal

inductive Token where
  | integer (value : Int64)
  | real (value : Double)
  | bool (value : Bool)
  | null
  | undefined
  /-- The text of a string with its escapes resolved. -/
  | string (value : String)
  | identifier (name : String)
  | leftParen
  | rightParen
  | leftBracket
  | rightBracket
  | leftBrace
  | rightBrace
  | comma
  | colon
deriving DecidableEq

/-- The key that a token can be. -/
def Token.key? : Token → Option String
  | identifier text => some text
  | string text => some text
  | _ => none

/-- The name of a token in messages. -/
def Token.text : Token → String
  | integer value => "Integer(" ++ integerText value ++ ")"
  | real value => "Real(" ++ RealLayout.tagged.text value ++ ")"
  | bool true => "Bool(true)"
  | bool false => "Bool(false)"
  | null => "Null"
  | undefined => "Undefined"
  | string value => "Str(" ++ Text.quoted value ++ ")"
  | identifier name => "Identifier(" ++ Text.quoted name ++ ")"
  | leftParen => "LParen"
  | rightParen => "RParen"
  | leftBracket => "LBracket"
  | rightBracket => "RBracket"
  | leftBrace => "LBrace"
  | rightBrace => "RBrace"
  | comma => "Comma"
  | colon => "Colon"

end LineShell.Literal
