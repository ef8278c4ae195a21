import AccessTree.Json.Shown
import AccessTree.Word

/-! # Issues

An `Issue` says why a value does not have the shape that is asked for: a cause, the place of the
value inside the whole input, and the value itself. `Issue.code` is the short name of a cause and
`Issue.message` its wording. -/

namespace AccessTree

/-- One step from a value to a part of it. -/
inductive Seg where
  | field (name : String)
  | index (i : Nat)
  deriving DecidableEq, Repr

/-- The step as a JSON value. -/
def Seg.toJson : Seg → Json
  | .field name => .str name
  | .index i => .nat i

/-- Why a value is rejected. -/
inductive IssueCause where
  /-- A required field is not there. -/
  | missing
  /-- A field is there that is not known. -/
  | unknownField
  | notText
  | notInteger
  | unreadableInteger
  | overlongInteger
  | fractionalInteger
  | notFinite
  | notNumber
  | notTruthValue
  | unreadableTruthValue
  | notList
  | notObject
  /-- No object where an object of the named type is asked for. -/
  | notA (typeName : String)
  /-- No object where one is asked for whose fields are read. -/
  | noFields
  /-- None of several alternatives. -/
  | notOneOf (alternatives : List String)
  /-- An empty list where one item at least is asked for. -/
  | tooFewItems
  /-- An empty text where one character at least is asked for. -/
  | tooShort
  /-- No tag tells which alternative is meant. -/
  | noTag
  /-- The tag is none of the expected ones. -/
  | unknownTag (tag : String) (expected : List String)
  /-- A rule of the domain is broken. -/
  | rule (text : String)
  deriving DecidableEq, Repr

/-- **Why a value does not have the shape that is asked for.** -/
structure Issue where
  cause : IssueCause
  /-- The way from the whole input to the value. -/
  place : List Seg
  /-- The rejected value; for a missing field the object without it. -/
  input : Json
  deriving DecidableEq

namespace IssueCause

/-- The places where a tag is looked for. -/
def tagPlaces : String := "'condition_type' | 'conditionType'"

/-- Names between single quotes. -/
def quotedNames (names : List String) : List String := names.map fun n => "'" ++ n ++ "'"

/-- The short name of a cause. -/
def code : IssueCause → String
  | .missing => "missing"
  | .unknownField => "extra_forbidden"
  | .notText => "string_type"
  | .notInteger => "int_type"
  | .unreadableInteger => "int_parsing"
  | .overlongInteger => "int_parsing_size"
  | .fractionalInteger => "int_from_float"
  | .notFinite => "finite_number"
  | .notNumber => "float_type"
  | .notTruthValue => "bool_type"
  | .unreadableTruthValue => "bool_parsing"
  | .notList => "list_type"
  | .notObject => "dict_type"
  | .notA _ => "model_type"
  | .noFields => "model_attributes_type"
  | .notOneOf [_] => "literal_error"
  | .notOneOf _ => "enum"
  | .tooFewItems => "too_short"
  | .tooShort => "string_too_short"
  | .noTag => "union_tag_not_found"
  | .unknownTag _ _ => "union_tag_invalid"
  | .rule _ => "value_error"

/-- The wording of a cause. -/
def message : IssueCause → String
  | .missing => "Field required"
  | .unknownField => "Extra inputs are not permitted"
  | .notText => "Input should be a valid string"
  | .notInteger => "Input should be a valid integer"
  | .unreadableInteger => "Input should be a valid integer, unable to parse string as an integer"
  | .overlongInteger => "Unable to parse input string as an integer, exceeded maximum size"
  | .fractionalInteger => "Input should be a valid integer, got a number with a fractional part"
  | .notFinite => "Input should be a finite number"
  | .notNumber => "Input should be a valid number"
  | .notTruthValue => "Input should be a valid boolean"
  | .unreadableTruthValue => "Input should be a valid boolean, unable to interpret input"
  | .notList => "Input should be a valid list"
  | .notObject => "Input should be a valid dictionary"
  | .notA typeName => "Input should be a valid dictionary or instance of " ++ typeName
  | .noFields => "Input should be a valid dictionary or object to extract fields from"
  | .notOneOf names => "Input should be " ++ alternatives names
  | .tooFewItems => "List should have at least 1 item after validation, not 0"
  | .tooShort => "String should have at least 1 character"
  | .noTag => "Unable to extract tag using discriminator " ++ tagPlaces
  | .unknownTag tag expected =>
    "Input tag '" ++ tag ++ "' found using " ++ tagPlaces ++
      " does not match any of the expected tags: " ++ ", ".intercalate (quotedNames expected)
  | .rule text => "Value error, " ++ text

end IssueCause

namespace Issue

/-- The issue as a JSON value. -/
def toJson (i : Issue) : Json :=
  .obj [("type", .str i.cause.code), ("loc", .arr (i.place.map Seg.toJson)),
    ("msg", .str i.cause.message)]

/-- The issue and the rejected value as a JSON value. -/
def toJsonWithInput (i : Issue) : Json :=
  .obj [("type", .str i.cause.code), ("loc", .arr (i.place.map Seg.toJson)),
    ("msg", .str i.cause.message), ("input", i.input)]

/-- Issues as a JSON value. -/
def listToJson (issues : List Issue) : Json := .arr (issues.map toJson)

/-- Issues and the rejected values as a JSON value. -/
def listToJsonWithInput (issues : List Issue) : Json := .arr (issues.map toJsonWithInput)

end Issue

end AccessTree
