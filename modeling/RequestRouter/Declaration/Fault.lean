import RequestRouter.Declaration.SourceFile
import RequestRouter.Text.Quoted

/-!
# Why a declaration file cannot be read

A fault has one cause and the position of the text that shows it. The causes are
distinguished by what was looked for; `RequestRouter.ParseFault.reasonText` words them.
-/

namespace RequestRouter

/-- What a declaration needs at some place. -/
inductive Expectation where
  /-- A name. -/
  | identifier
  /-- The name of a parameter. -/
  | parameterName
  /-- The name of a method. -/
  | methodName
  /-- A member of a declared type. -/
  | member
  /-- The given symbol. -/
  | symbol (text : String)
deriving DecidableEq

/-- The expectation in messages. -/
def Expectation.text : Expectation → String
  | .identifier => "identifier"
  | .parameterName => "parameter name"
  | .methodName => "method name"
  | .member => "member"
  | .symbol text => Text.quote text

/-- Why a text is no declaration file. -/
inductive ParseReason where
  /-- No token begins like `text`. -/
  | unreadable (text : String)
  /-- Something was needed where the token `found` stands. -/
  | expected (what : Expectation) (found : String)
  /-- Nothing can start with the token `found`. -/
  | unexpected (found : String)
  /-- The integer `found` is too large or has digits without a value. -/
  | invalidInteger (found : String)
  /-- There is not even the token that ends a file. -/
  | noTokens
deriving DecidableEq

/-- A cause and where it shows. -/
structure ParseFault where
  /-- The cause. -/
  reason : ParseReason
  /-- The place. -/
  position : Position
deriving DecidableEq

/-- The cause in words. -/
def ParseReason.text : ParseReason → String
  | .unreadable text => "Syntax error: " ++ Text.quote text
  | .expected what found => "Expected " ++ what.text ++ " but found " ++ Text.quote found
  | .unexpected found => "Unexpected token " ++ Text.quote found
  | .invalidInteger found => "Invalid integer " ++ Text.quote found
  | .noTokens => "Expected EOF token"

/-- The fault with its place in words. -/
def ParseFault.message (fault : ParseFault) : String :=
  let line := fault.position.line
  let column := fault.position.column
  s!"Parse error at line {line}, column {column}: " ++ fault.reason.text

end RequestRouter
