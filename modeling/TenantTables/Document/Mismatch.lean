import TenantTables.Value.Basic

namespace TenantTables.Document

inductive Step where
  | key (name : String)
  | index (i : Nat)
  deriving DecidableEq, Repr

def Step.print : Step → String
  | .key name => name
  | .index i => toString i

inductive Mismatch where
  | missing
  | unexpected
  | text
  | boolean
  | booleanText
  | number
  | numberText
  | integer
  | integerText
  | integerSize
  | fraction
  | infinite
  | atLeast (bound : Int)
  | choice (names : List String)
  | mapping
  | list
  | document (name : String)
  | rule (reason : String)
  deriving DecidableEq, Repr

namespace Mismatch

def code : Mismatch → String
  | .missing => "missing"
  | .unexpected => "extra_forbidden"
  | .text => "string_type"
  | .boolean => "bool_type"
  | .booleanText => "bool_parsing"
  | .number => "float_type"
  | .numberText => "float_parsing"
  | .integer => "int_type"
  | .integerText => "int_parsing"
  | .integerSize => "int_parsing_size"
  | .fraction => "int_from_float"
  | .infinite => "finite_number"
  | .atLeast _ => "greater_than_equal"
  | .choice _ => "enum"
  | .mapping => "dict_type"
  | .list => "list_type"
  | .document _ => "model_type"
  | .rule _ => "value_error"

def listChoices (names : List String) : String :=
  go (names.map fun n => "'" ++ n ++ "'")
where
  go : List String → String
    | [] => ""
    | [a] => a
    | [a, b] => a ++ " or " ++ b
    | a :: rest => a ++ ", " ++ go rest

def message : Mismatch → String
  | .missing => "Field required"
  | .unexpected => "Extra inputs are not permitted"
  | .text => "Input should be a valid string"
  | .boolean => "Input should be a valid boolean"
  | .booleanText => "Input should be a valid boolean, unable to interpret input"
  | .number => "Input should be a valid number"
  | .numberText => "Input should be a valid number, unable to parse string as a number"
  | .integer => "Input should be a valid integer"
  | .integerText => "Input should be a valid integer, unable to parse string as an integer"
  | .integerSize => "Unable to parse input string as an integer, exceeded maximum size"
  | .fraction => "Input should be a valid integer, got a number with a fractional part"
  | .infinite => "Input should be a finite number"
  | .atLeast bound => "Input should be greater than or equal to " ++ toString bound
  | .choice names => "Input should be " ++ listChoices names
  | .mapping => "Input should be a valid dictionary"
  | .list => "Input should be a valid list"
  | .document name => "Input should be a valid dictionary or instance of " ++ name
  | .rule reason => "Value error, " ++ reason

end Mismatch

structure Issue where
  path : List Step
  mismatch : Mismatch
  input : Value
  deriving DecidableEq

def Issue.location (i : Issue) : String :=
  ".".intercalate (i.path.map Step.print)

end TenantTables.Document
