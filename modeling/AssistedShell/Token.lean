/-! The words and operators of a command line. -/

namespace AssistedShell

/-- The operators that take the next word as a file or as a delimiter. -/
inductive Redirect where
  | input | hereDoc | output | append
  deriving DecidableEq, Repr, Inhabited

inductive Token where
  | word (text : String)
  | pipe
  | background
  | redirect (operator : Redirect)
  deriving DecidableEq, Repr, Inhabited

namespace Redirect

def text : Redirect → String
  | .input => "<"
  | .hereDoc => "<<"
  | .output => ">"
  | .append => ">>"

end Redirect

namespace Token

/-- The characters of an operator. -/
def operatorText? : Token → Option String
  | .word _ => none
  | .pipe => some "|"
  | .background => some "&"
  | .redirect op => some op.text

/-- The operator of given characters. -/
def ofOperatorText? : String → Option Token
  | "|" => some .pipe
  | "&" => some .background
  | "<" => some (.redirect .input)
  | "<<" => some (.redirect .hereDoc)
  | ">" => some (.redirect .output)
  | ">>" => some (.redirect .append)
  | _ => none

end Token

end AssistedShell
