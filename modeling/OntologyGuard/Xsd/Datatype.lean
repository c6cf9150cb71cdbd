import OntologyGuard.Xsd.Binary
import OntologyGuard.Xsd.Duration
import OntologyGuard.Xsd.Name

namespace OntologyGuard.Xsd

inductive Datatype where
  | string | normalizedString | token | anyURI
  | language | name | ncName | nmToken | qName
  | boolean | decimal | float | double
  | integer | nonNegativeInteger | positiveInteger | nonPositiveInteger | negativeInteger
  | long | int | short | byte
  | unsignedLong | unsignedInt | unsignedShort | unsignedByte
  | dateTime | dateTimeStamp | date | time | gYear | gYearMonth | duration
  | hexBinary | base64Binary
  deriving DecidableEq, Inhabited

namespace Datatype

def localName : Datatype → String
  | string => "string"
  | normalizedString => "normalizedString"
  | token => "token"
  | anyURI => "anyURI"
  | language => "language"
  | name => "Name"
  | ncName => "NCName"
  | nmToken => "NMTOKEN"
  | qName => "QName"
  | boolean => "boolean"
  | decimal => "decimal"
  | float => "float"
  | double => "double"
  | integer => "integer"
  | nonNegativeInteger => "nonNegativeInteger"
  | positiveInteger => "positiveInteger"
  | nonPositiveInteger => "nonPositiveInteger"
  | negativeInteger => "negativeInteger"
  | long => "long"
  | int => "int"
  | short => "short"
  | byte => "byte"
  | unsignedLong => "unsignedLong"
  | unsignedInt => "unsignedInt"
  | unsignedShort => "unsignedShort"
  | unsignedByte => "unsignedByte"
  | dateTime => "dateTime"
  | dateTimeStamp => "dateTimeStamp"
  | date => "date"
  | time => "time"
  | gYear => "gYear"
  | gYearMonth => "gYearMonth"
  | duration => "duration"
  | hexBinary => "hexBinary"
  | base64Binary => "base64Binary"

def all : List Datatype :=
  [string, normalizedString, token, anyURI, language, name, ncName, nmToken, qName, boolean,
    decimal, float, double, integer, nonNegativeInteger, positiveInteger, nonPositiveInteger,
    negativeInteger, long, int, short, byte, unsignedLong, unsignedInt, unsignedShort,
    unsignedByte, dateTime, dateTimeStamp, date, time, gYear, gYearMonth, duration, hexBinary,
    base64Binary]

def ofLocalName? (name : String) : Option Datatype := all.find? (·.localName == name)

/-- The least and the greatest value of an integer type, where it has them. -/
def integerBounds? : Datatype → Option (Option Int × Option Int)
  | integer => some (none, none)
  | nonNegativeInteger => some (some 0, none)
  | positiveInteger => some (some 1, none)
  | nonPositiveInteger => some (none, some 0)
  | negativeInteger => some (none, some (-1))
  | long => some (some (-9223372036854775808), some 9223372036854775807)
  | int => some (some (-2147483648), some 2147483647)
  | short => some (some (-32768), some 32767)
  | byte => some (some (-128), some 127)
  | unsignedLong => some (some 0, some 18446744073709551615)
  | unsignedInt => some (some 0, some 4294967295)
  | unsignedShort => some (some 0, some 65535)
  | unsignedByte => some (some 0, some 255)
  | _ => none

/-- Whether a text without blanks at its ends is in the lexical space of a type. -/
def acceptsTrimmed (type : Datatype) (cs : List Char) : Bool :=
  match type with
  | string | normalizedString | token | anyURI => true
  | language => isLanguage cs
  | name => isName cs
  | ncName => isNcName cs
  | nmToken => isNmToken cs
  | qName => isQName cs
  | boolean => ["true", "false", "1", "0"].contains (String.ofList cs)
  | decimal => isDecimal cs
  | float | double => isFloat cs
  | dateTime => isDateTime false cs
  | dateTimeStamp => isDateTime true cs
  | date => isCalendarDate cs
  | time => isTimeOfDay cs
  | gYear => isYear cs
  | gYearMonth => isYearMonth cs
  | duration => isDuration cs
  | hexBinary => isHexBinary cs
  | base64Binary => isBase64Binary cs
  | type => type.integerBounds?.any fun (low, high) ↦ isIntegerBetween low high cs

/-- Whether a text is in the lexical space of a type. Blanks at its ends do not count. -/
def accepts (type : Datatype) (value : String) : Bool :=
  type.acceptsTrimmed (Text.trim value.toList)

end Datatype

end OntologyGuard.Xsd
