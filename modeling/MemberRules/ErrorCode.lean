/-
# Error codes

The codes of failures and configuration errors. Numbers from 2000 name validation failures, from
7000 configuration errors and from 9000 internal errors; `category` reads the group off the number.
-/

namespace MemberRules

/-- A code. -/
inductive ErrorCode
  | validationGeneric | requiredFieldMissing | invalidFormat | outOfRange | invalidType
  | constraintViolation | comparisonFailed | invalidEmail | invalidUrl | invalidPhone
  | resourceNotFound
  | configurationGeneric | invalidRuleDefinition | unknownMember | emptyConditionalBlock
  | missingRule | duplicateValueProvider | rulesNotBuilt | unsupportedMember
  | internalGeneric | unexpectedError
  deriving DecidableEq, Repr, Inhabited

namespace ErrorCode

/-- Every code, in the order of the numbers. -/
def all : List ErrorCode :=
  [validationGeneric, requiredFieldMissing, invalidFormat, outOfRange, invalidType,
    constraintViolation, comparisonFailed, invalidEmail, invalidUrl, invalidPhone,
    resourceNotFound, configurationGeneric, invalidRuleDefinition, unknownMember,
    emptyConditionalBlock, missingRule, duplicateValueProvider, rulesNotBuilt, unsupportedMember,
    internalGeneric, unexpectedError]

/-- The number of a code. -/
def number : ErrorCode → Nat
  | validationGeneric => 2000
  | requiredFieldMissing => 2001
  | invalidFormat => 2002
  | outOfRange => 2003
  | invalidType => 2004
  | constraintViolation => 2005
  | comparisonFailed => 2006
  | invalidEmail => 2010
  | invalidUrl => 2013
  | invalidPhone => 2014
  | resourceNotFound => 2030
  | configurationGeneric => 7000
  | invalidRuleDefinition => 7001
  | unknownMember => 7002
  | emptyConditionalBlock => 7003
  | missingRule => 7004
  | duplicateValueProvider => 7005
  | rulesNotBuilt => 7006
  | unsupportedMember => 7010
  | internalGeneric => 9000
  | unexpectedError => 9001

/-- The name of a code. -/
def name : ErrorCode → String
  | validationGeneric => "E2000_VALIDATION_GENERIC"
  | requiredFieldMissing => "E2001_REQUIRED_FIELD_MISSING"
  | invalidFormat => "E2002_INVALID_FORMAT"
  | outOfRange => "E2003_OUT_OF_RANGE"
  | invalidType => "E2004_INVALID_TYPE"
  | constraintViolation => "E2005_CONSTRAINT_VIOLATION"
  | comparisonFailed => "E2006_COMPARISON_FAILED"
  | invalidEmail => "E2010_INVALID_EMAIL"
  | invalidUrl => "E2013_INVALID_URL"
  | invalidPhone => "E2014_INVALID_PHONE"
  | resourceNotFound => "E2030_RESOURCE_NOT_FOUND"
  | configurationGeneric => "E7000_CONFIGURATION_GENERIC"
  | invalidRuleDefinition => "E7001_INVALID_RULE_DEFINITION"
  | unknownMember => "E7002_UNKNOWN_MEMBER"
  | emptyConditionalBlock => "E7003_EMPTY_CONDITIONAL_BLOCK"
  | missingRule => "E7004_MISSING_RULE"
  | duplicateValueProvider => "E7005_DUPLICATE_VALUE_PROVIDER"
  | rulesNotBuilt => "E7006_RULES_NOT_BUILT"
  | unsupportedMember => "E7010_UNSUPPORTED_MEMBER"
  | internalGeneric => "E9000_INTERNAL_GENERIC"
  | unexpectedError => "E9001_UNEXPECTED_ERROR"

/-- The group of a code, by its number. -/
def category (c : ErrorCode) : String :=
  if 2000 ≤ c.number && c.number < 3000 then "validation"
  else if 7000 ≤ c.number && c.number < 8000 then "configuration"
  else "internal"

/-- The code of a name. -/
def ofName? (s : String) : Option ErrorCode := all.find? fun c => c.name == s

/-- The code of a number. -/
def ofNumber? (n : Int) : Option ErrorCode := all.find? fun c => (c.number : Int) == n

end ErrorCode
end MemberRules
