import CodeSurvey.Lexis.Pattern
import CodeSurvey.Grammar.Definition

namespace CodeSurvey.Lexis

open Category Pattern

/-- White space between lexemes. -/
def isBlank (c : Char) : Bool :=
  ('\t' ≤ c && c ≤ '\r') || c == ' ' || c == '\u00a0' || c == '\u1680' ||
    ('\u2000' ≤ c && c ≤ '\u200b') || c == '\u2028' || c == '\u2029' || c == '\u202f' ||
    c == '\u205f' || c == '\u2060' || c == '\u3000' || c == '\ufeff'

/-- The characters that end a name because they are marks of the language. -/
def isMark (c : Char) : Bool := ":;`\"'@#.,|^&<=>+-*/\\%?!~()[]\x7b\x7d".toList.contains c

/-- A character of a name. Whatever is neither blank, control character nor mark will do. -/
def isNameChar (c : Char) : Bool := '\x1f' < c && !isBlank c && !isMark c

def isDigit (c : Char) : Bool := '0' ≤ c && c ≤ '9'

def isHex (c : Char) : Bool := isDigit c || ('a' ≤ c && c ≤ 'f') || ('A' ≤ c && c ≤ 'F')

def isLetter (c : Char) : Bool := ('a' ≤ c && c ≤ 'z') || ('A' ≤ c && c ≤ 'Z')

def isLineEnd (c : Char) : Bool := c == '\n' || c == '\r' || c == '\u2028' || c == '\u2029'

/-- Any character but some. NUL, which also marks the end of a text, is never among the others. -/
def other (rejects : Char → Bool) : Pattern := one fun c => c != '\x00' && !rejects c

def digit : Pattern := one isDigit

def hex : Pattern := one isHex

def unicodeEscape : Pattern :=
  alt [seq [text "\\u", hex.times 4], seq [text "\\u\x7b", plus hex, char '}']]

def nameStart : Pattern := alt [one fun c => isNameChar c && !isDigit c, unicodeEscape]

def namePart : Pattern := alt [one isNameChar, unicodeEscape]

def namePattern : Pattern := seq [nameStart, star namePart]

/-- Digits of some kind, where a single underscore may stand between two. -/
def grouped (d : Pattern) : Pattern := seq [d, star (seq [opt (char '_'), d])]

def decimalDigits : Pattern := grouped digit

def exponent : Pattern := seq [chars ['e', 'E'], opt (chars ['-', '+']), decimalDigits]

def hexLiteral : Pattern := seq [alt [text "0x", text "0X"], grouped hex]

def binaryLiteral : Pattern := seq [alt [text "0b", text "0B"], grouped (range '0' '1')]

def octalLiteral : Pattern := seq [alt [text "0o", text "0O"], grouped (range '0' '7')]

def decimalInteger : Pattern :=
  alt [char '0', seq [opt (char '0'), range '1' '9', opt (seq [opt (char '_'), decimalDigits])]]

def decimalLiteral : Pattern := alt [
  seq [decimalInteger, char '.', opt decimalDigits, opt exponent],
  seq [char '.', decimalDigits, opt exponent],
  seq [decimalInteger, exponent],
  decimalDigits]

def numberPattern : Pattern := alt [hexLiteral, decimalLiteral, binaryLiteral, octalLiteral,
  seq [alt [hexLiteral, binaryLiteral, octalLiteral, decimalDigits], char 'n']]

def escapePattern : Pattern := seq [char '\\', alt [
  other fun c => (c == 'x' || c == 'u' || ('0' ≤ c && c ≤ '7')),
  seq [range '0' '7', (range '0' '7').upTo 2],
  seq [char 'x', hex.times 2],
  seq [char 'u', hex.times 4],
  seq [text "u\x7b", plus hex, char '}'],
  seq [chars ['\r', '?'], chars ['\n', '\u2028', '\u2029']]]]

def commentPattern : Pattern := alt [
  seq [text "//", star (other isLineEnd)],
  seq [text "/*", star (other (· == '*')), plus (char '*'),
    star (seq [other fun c => c == '/' || c == '*', star (other (· == '*')), plus (char '*')]),
    char '/']]

def escapedInLine : Pattern := seq [char '\\', other (· == '\n')]

def regexBody : Pattern := plus (alt [
  seq [char '[', star (alt [escapedInLine, other "]\n\\".toList.contains]), char ']'],
  escapedInLine,
  other "/\\[\n".toList.contains])

def referencePattern : Pattern := seq [char '&',
  alt [seq [char '#', alt [seq [chars ['x', 'X'], hex, hex.upTo 5], seq [digit, digit.upTo 4]]],
    seq [one isLetter, (one isLetter).upTo 29]],
  char ';']

def isAsciiNameStart (c : Char) : Bool := isLetter c || c == '_' || c == '$'

def isAsciiName (c : Char) : Bool := isAsciiNameStart c || isDigit c

/-- Text inside quotes of an attribute: an ampersand must not begin a reference. -/
def attributeText (quote : Char) : Pattern := plus (alt [
  other fun c => c == quote || c == '&',
  seq [char '&', other fun c => c == '#' || isLetter c]])

def asciiBlank : Pattern := one fun c => ('\t' ≤ c && c ≤ '\r') || c == ' '

structure Recogniser where
  pattern : Pattern
  /-- Whether it must follow at once, with no blank in between. -/
  immediate : Bool := false
  precedence : Int := 0

/-- The recogniser of a lexeme; none for those whose extent depends on what is around them. -/
def recogniser : Category → Option Recogniser
  | identifier => some { pattern := namePattern }
  | privatePropertyIdentifier => some { pattern := seq [char '#', namePattern] }
  | number => some { pattern := numberPattern }
  | comment => some { pattern := commentPattern }
  | hashBangLine => some { pattern := seq [text "#!", star (other (· == '\n'))] }
  | doubleQuotedFragment => some { pattern := plus (other "\"\\\r\n".toList.contains),
                                   immediate := true, precedence := 1 }
  | singleQuotedFragment => some { pattern := plus (other "'\\\r\n".toList.contains),
                                   immediate := true, precedence := 1 }
  | escapeSequence => some { pattern := escapePattern, immediate := true }
  | regexPattern => some { pattern := regexBody, immediate := true, precedence := -1 }
  | regexClose => some { pattern := char '/', immediate := true, precedence := 1 }
  | regexFlags => some { pattern := plus (range 'a' 'z'), immediate := true }
  | jsxIdentifier => some { pattern := seq [one isAsciiNameStart, star (one isAsciiName),
                              char '-', star (one fun c => isAsciiName c || c == '-')] }
  | htmlCharacterReference => some { pattern := referencePattern }
  | doubleQuotedJsxFragment => some { pattern := attributeText '"', immediate := true,
                                      precedence := 1 }
  | singleQuotedJsxFragment => some { pattern := attributeText '\'', immediate := true,
                                      precedence := 1 }
  | staticGet => some { pattern := seq [text "static", plus asciiBlank, text "get",
                          star asciiBlank, char '\n'] }
  | _ => none

structure Match where
  terminal : Nat
  start : Nat
  stop : Nat
  precedence : Int
  /-- 2 for a literal text, and one more for a lexeme that follows at once. -/
  weight : Nat
deriving Repr, Inhabited

/-- Whether a match is taken rather than one found before it. -/
def Match.beats (new old : Match) : Bool :=
  if new.precedence ≠ old.precedence then old.precedence < new.precedence
  else if new.stop ≠ old.stop then old.stop < new.stop
  else old.weight < new.weight

end CodeSurvey.Lexis
