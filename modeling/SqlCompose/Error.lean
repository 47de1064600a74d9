import SqlCompose.Text.Shown

/-!
# Errors

Every way in which a call can fail, by cause. The wording is in `message` and nowhere else.
-/

namespace SqlCompose

inductive Omission where
  | selectTable
  | unionMembers
  | unionAlias
  | insertTable
  | insertRows
  | updateTable
  | updateAssignments
  | updateSource
  | deleteTable
  | cteName
  | cteQuery (name : Text)
  | columnNameAndType
  | columnName
  | columnType (name : Text)
  | createTable
  | createColumns
  | alterTable
  | alterations
  | dropTable
  deriving DecidableEq, Repr

inductive ClauseFault where
  | connective (given : Text)
  | flavor (given : Text)
  | keyword (label given : Text) (allowed : List Text)
  | referentialAction (given : Text)
  | count (label : Text)
  | orderWithoutField (shown : Text)
  | typeArgument (name shown : Text)
  deriving DecidableEq, Repr

inductive Error where
  | incomplete (omission : Omission)
  | clause (fault : ClauseFault)
  | mismatch (fragment : Text) (expected received : Nat)
  | unsupportedValue (type shown : Text)
  | keyNotText (type : Text)
  | emptySegment (reference : Text)
  | schemaIndex (index : Nat) (schemas : Text)
  | numeralTooLong (digits : Nat)
  | numberTooLong
  | unknownFlavor (given : Text) (allowed : List Text)
  | unknownLevel (given : Text)
  | badShape (explanation : Text)
  | bindNameMissing
  | keyMissing
  | indexOutOfRange
  | badArgument
  | attributeMissing
  | endlessNesting
  | incomparable
  | directoryInTheWay
  | directoryMissing
  | nameMissing
  | nameTooLong
  | outOfMemory
  | unbound (name : Text)
  deriving DecidableEq, Repr

namespace Omission

def message : Omission → Text
  | selectTable => "Table name is required for SELECT query."
  | unionMembers => "No SELECT queries added to the UNION."
  | unionAlias => "Alias is required for UNION query."
  | insertTable => "No table specified for INSERT query."
  | insertRows => "No values or SELECT query specified for INSERT query."
  | updateTable => "No table specified for UPDATE query."
  | updateAssignments => "No SET values specified for UPDATE query."
  | updateSource => "JOINs require a USING clause in UPDATE queries."
  | deleteTable => "No table specified for DELETE query."
  | cteName => "CTE name is required."
  | cteQuery name => "No query defined for CTE '" ++ name ++ "'."
  | columnNameAndType => "Column name and type are not set."
  | columnName => "Column name is not set."
  | columnType name => "Column type is not set for column " ++ name ++ "."
  | createTable => "Table name is not set."
  | createColumns => "No columns defined for the table."
  | alterTable => "Table name is required to build ALTER TABLE query."
  | alterations => "No alterations specified for ALTER TABLE query."
  | dropTable => "Table name is required to build DROP TABLE query."

end Omission

namespace ClauseFault

def message : ClauseFault → Text
  | connective given => "Invalid statement kind: " ++ given ++ ". Use AND or OR"
  | flavor given => "Unsupported SQL flavor: " ++ given
  | keyword label given allowed =>
    "Invalid " ++ label ++ ": " ++ given ++ ". Allowed values are: " ++ Text.join ", " allowed
  | referentialAction given => "Invalid referential action: " ++ given
  | count label => label ++ " must be a non-negative integer."
  | orderWithoutField shown => "ORDER BY entry has no field: " ++ shown
  | typeArgument name shown =>
    "Type arguments for " ++ name ++ " must be non-negative integers, got " ++ shown

end ClauseFault

namespace Error

/-- The text of an error; empty for the misuses that have a kind and no text. -/
def message : Error → Text
  | incomplete omission => omission.message
  | clause fault => fault.message
  | mismatch fragment expected received =>
    "Number of placeholders does not match number of values: " ++ Text.ofNat expected ++ " marker(s) in '" ++
      fragment ++ "', " ++ Text.ofNat received ++ " value(s) supplied"
  | unsupportedValue type shown => "Unsupported parameter value of type " ++ type ++ ": " ++ shown
  | keyNotText type => "JSON object keys must be strings, got " ++ type
  | emptySegment reference => "Invalid identifier '" ++ reference ++ "': empty segment"
  | schemaIndex index schemas =>
    "Schema index " ++ Text.ofNat index ++ " out of bounds for provided schemas. Provided schemas: " ++ schemas
  | numeralTooLong digits =>
    "Exceeds the limit (4300 digits) for integer string conversion: value has " ++ Text.ofNat digits ++
      " digits; use sys.set_int_max_str_digits() to increase the limit"
  | numberTooLong =>
    "Exceeds the limit (4300 digits) for integer string conversion; use sys.set_int_max_str_digits() to increase the limit"
  | unknownFlavor given allowed =>
    "Unsupported SQL flavor '" ++ given ++ "'. Expected one of: " ++ Text.join ", " allowed
  | unknownLevel given => "Unknown log level: " ++ given
  | badShape explanation => explanation
  | bindNameMissing | keyMissing | indexOutOfRange | badArgument | attributeMissing | endlessNesting | incomparable
  | directoryInTheWay | directoryMissing | nameMissing | nameTooLong | outOfMemory | unbound _ => []

end Error

end SqlCompose
