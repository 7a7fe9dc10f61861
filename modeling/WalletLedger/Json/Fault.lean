/-!
# Faults of a JSON text

Where a text stops being JSON, and the words for it.
-/

namespace WalletLedger
namespace Json

inductive Fault where
  | endInList
  | endInObject
  | endInString
  | endInValue
  | colonDue
  | listCommaOrEndDue
  | objectCommaOrEndDue
  | identDue
  | valueDue
  | badEscape
  | badNumber
  | numberOutOfRange
  | controlCharacter
  | keyNotString
  | loneSurrogate
  | trailingComma
  | trailingCharacters
  | unfinishedSurrogate
  | tooDeep
  deriving DecidableEq, Repr

namespace Fault

def message : Fault → String
  | .endInList => "EOF while parsing a list"
  | .endInObject => "EOF while parsing an object"
  | .endInString => "EOF while parsing a string"
  | .endInValue => "EOF while parsing a value"
  | .colonDue => "expected `:`"
  | .listCommaOrEndDue => "expected `,` or `]`"
  | .objectCommaOrEndDue => "expected `,` or `\x7d`"
  | .identDue => "expected ident"
  | .valueDue => "expected value"
  | .badEscape => "invalid escape"
  | .badNumber => "invalid number"
  | .numberOutOfRange => "number out of range"
  | .controlCharacter => "control character (\\u0000-\\u001F) found while parsing a string"
  | .keyNotString => "key must be a string"
  | .loneSurrogate => "lone leading surrogate in hex escape"
  | .trailingComma => "trailing comma"
  | .trailingCharacters => "trailing characters"
  | .unfinishedSurrogate => "unexpected end of hex escape"
  | .tooDeep => "recursion limit exceeded"

end Fault
end Json
end WalletLedger
