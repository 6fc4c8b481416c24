import Wiring.Calendar
import Wiring.Text.Quoted

/-! What keeps a YAML text from having a value. -/
namespace Wiring.Yaml

/-- A well-formed scalar whose text denotes no value of its type. -/
inductive ScalarFault where
  | integer (base : Nat) (text : String)
  | number (text : String)
  | digits (count : Nat)
  | flag (word : String)
  | calendar (f : CalendarFault)
  | noTimestamp
  | timestampEntries
  | emptyNumber
  | codePoint
  | oversizedCodePoint
  | oversizedWeight
deriving DecidableEq, Repr

def ScalarFault.text : ScalarFault → String
  | .integer base t => "invalid literal for int() with base " ++ toString base ++ ": " ++
      String.ofList ((Text.quoted t).toList.take 200)
  | .number t => "could not convert string to float: " ++ Text.quoted t
  | .digits n => "Exceeds the limit (4300 digits) for integer string conversion: value has " ++
      toString n ++ " digits; use sys.set_int_max_str_digits() to increase the limit"
  | .flag w => Text.quoted w
  | .calendar f => f.text
  | .noTimestamp => "'NoneType' object has no attribute 'groupdict'"
  | .timestampEntries => "expected string or bytes-like object, got 'list'"
  | .emptyNumber => "string index out of range"
  | .codePoint => "chr() arg not in range(0x110000)"
  | .oversizedCodePoint => "Python int too large to convert to C int"
  | .oversizedWeight => "int too large to convert to float"

def ScalarFault.kind : ScalarFault → String
  | .flag _ => "KeyError"
  | .noTimestamp => "AttributeError"
  | .timestampEntries => "TypeError"
  | .emptyNumber => "IndexError"
  | .oversizedCodePoint | .oversizedWeight => "OverflowError"
  | _ => "ValueError"

/-- What keeps a text from being a document: it is malformed, or a scalar in it has no value. -/
inductive Fault where
  | malformed
  | scalar (f : ScalarFault)
deriving DecidableEq, Repr

end Wiring.Yaml
