import Scaffold.Text.Basic

/-!
# Tokens

A schema file is read as a list of tokens.  Each token knows its kind, the text it stands for and
its span in the source, in code points with the end excluded; the last token is always `eof`.

* `Token.endsOperand` tells whether a slash after the token divides.
* `LexError` says why a source has no tokens, and where.
-/

namespace Scaffold

/-- What a token is. -/
inductive TokenKind where
  /-- A name or keyword. -/
  | ident
  /-- A string literal. -/
  | string
  /-- A template literal, with or without substitutions. -/
  | template (interpolated : Bool)
  /-- A number literal. -/
  | number
  /-- A regular expression literal. -/
  | regex
  /-- An operator or another mark. -/
  | punct
  /-- The end of the source. -/
  | eof
  deriving DecidableEq, Repr

/-- One token.  The value of a string or template is its decoded text; the value of any other token
is its source text. -/
structure Token where
  /-- What the token is. -/
  kind : TokenKind
  /-- What it stands for. -/
  value : Text
  /-- The offset of its first code point. -/
  start : Nat
  /-- The offset after its last code point. -/
  stop : Nat
  deriving DecidableEq, Repr

namespace Token

/-- The token is the mark `value`. -/
def isPunct (t : Token) (value : Text) : Bool := t.kind = .punct && t.value = value

/-- The token is the name `value`. -/
def isIdent (t : Token) (value : Text) : Bool := t.kind = .ident && t.value = value

/-- The end of a source of `n` code points. -/
def endOf (n : Nat) : Token := ⟨.eof, [], n, n⟩

end Token

/-- The keywords after which an expression begins. -/
def expressionKeywords : List Text :=
  ["return", "typeof", "case", "in", "of", "new", "delete", "void"]

/-- A token of this kind and value ends an operand, so that a slash after it divides. -/
def TokenKind.endsOperand (kind : TokenKind) (value : Text) : Bool :=
  match kind with
  | .ident => !expressionKeywords.contains value
  | .punct => value = ")" || value = "]" || value = "\x7d"
  | .eof => false
  | _ => true

/-- What stops the reading of tokens. -/
inductive LexCause where
  /-- A string literal without its closing quote on the same line. -/
  | unclosedString
  /-- A template literal without its closing backquote. -/
  | unclosedTemplate
  /-- A substitution without its closing brace. -/
  | unclosedSubstitution
  /-- A regular expression without its closing slash on the same line. -/
  | unclosedRegex
  /-- A block comment without its end. -/
  | unclosedComment
  /-- An escape sequence that names no code point. -/
  | badEscape
  /-- An escape sequence whose number does not fit into 32 bits. -/
  | hugeEscape
  deriving DecidableEq, Repr

/-- Why a source has no tokens, and the offset where that shows. -/
structure LexError where
  /-- What is wrong. -/
  cause : LexCause
  /-- Where it is wrong. -/
  offset : Nat
  deriving DecidableEq, Repr

/-- The wording of a cause. -/
def LexCause.message : LexCause → Text
  | unclosedString => "Unterminated string literal"
  | unclosedTemplate => "Unterminated template literal"
  | unclosedSubstitution => "Unterminated template substitution"
  | unclosedRegex => "Unterminated regex literal"
  | unclosedComment => "Unterminated block comment"
  | badEscape => "Bad escape sequence"
  | hugeEscape => "Python int too large to convert to C int"

/-- The message of an error: the cause and its place; an escape whose number is too large is
reported without a place. -/
def LexError.message (e : LexError) : Text :=
  if e.cause = .hugeEscape then e.cause.message
  else e.cause.message ++ " at offset " ++ Text.ofNat e.offset

end Scaffold
