/-!
# What is wrong with a setting

A value that does not fit its field is reported by the field, the place in a
list if it is one, a short kind and a sentence.
-/

namespace Unscramble

inductive Complaint
  | boolText
  | boolKind
  | intText
  | intSize
  | intFraction
  | intInfinite
  | intKind
  | belowOne
  | scope
  | listKind
  | stringKind
  | stringUnicode
  | pathKind
deriving DecidableEq, Repr

namespace Complaint

def kind : Complaint → String
  | boolText => "bool_parsing"
  | boolKind => "bool_type"
  | intText => "int_parsing"
  | intSize => "int_parsing_size"
  | intFraction => "int_from_float"
  | intInfinite => "finite_number"
  | intKind => "int_type"
  | belowOne => "greater_than_equal"
  | scope => "enum"
  | listKind => "list_type"
  | stringKind => "string_type"
  | stringUnicode => "string_unicode"
  | pathKind => "path_type"

def message : Complaint → String
  | boolText => "Input should be a valid boolean, unable to interpret input"
  | boolKind => "Input should be a valid boolean"
  | intText => "Input should be a valid integer, unable to parse string as an integer"
  | intSize => "Unable to parse input string as an integer, exceeded maximum size"
  | intFraction => "Input should be a valid integer, got a number with a fractional part"
  | intInfinite => "Input should be a finite number"
  | intKind => "Input should be a valid integer"
  | belowOne => "Input should be greater than or equal to 1"
  | scope => "Input should be 'file' or 'cwd'"
  | listKind => "Input should be a valid list"
  | stringKind => "Input should be a valid string"
  | stringUnicode =>
    "Input should be a valid string, unable to parse raw data as a unicode string"
  | pathKind => "Input is not a valid path for <class 'pathlib.Path'>"

end Complaint

structure Issue where
  field : String
  index : Option Nat
  complaint : Complaint
deriving DecidableEq, Repr

/-- Where settings come from besides keywords. -/
inductive Source
  | environment
  | envFile
deriving DecidableEq, Repr

def Source.label : Source → String
  | .environment => "EnvSettingsSource"
  | .envFile => "DotEnvSettingsSource"

end Unscramble
