import SchemaHeaders.Complaint
import SchemaHeaders.PathName

/-!
# Failures

Everything that can stop a run, as causes. `Failure.message` holds the wording,
`Failure.code` a number for each kind, and `Failure.isValidation` tells the failures of a
well-formed schema from those of reading and writing.
-/

namespace SchemaHeaders

/-- Why a file could not be read or written. -/
inductive IoCause where
  | notFound
  | alreadyExists
  | notADirectory
  | isADirectory
  | nameTooLong
  | tooManyLinks
  | notText
  | nulInName
  | other (text : String)
  deriving DecidableEq

/-- The words of a cause. -/
def IoCause.message : IoCause → String
  | notFound => "No such file or directory (os error 2)"
  | alreadyExists => "File exists (os error 17)"
  | notADirectory => "Not a directory (os error 20)"
  | isADirectory => "Is a directory (os error 21)"
  | nameTooLong => "File name too long (os error 36)"
  | tooManyLinks => "Too many levels of symbolic links (os error 40)"
  | notText => "stream did not contain valid UTF-8"
  | nulInName => "file name contained an unexpected NUL byte"
  | other text => text

/-- Why a configuration cannot be used. -/
inductive ConfigProblem where
  | sharedDirectory (dir : PathName)
  | emptyBackend
  | document (complaint : Complaint)
  deriving DecidableEq

/-- The words of a problem. -/
def ConfigProblem.message : ConfigProblem → String
  | sharedDirectory dir => "enum_dir and struct_dir both resolve to " ++ dir.text
  | emptyBackend => "backend cannot be empty"
  | document complaint => complaint.text

/-- Why a run stopped. -/
inductive Failure where
  | io (path : PathName) (cause : IoCause)
  | parse (path : String) (complaint : Complaint)
  | unsupportedFormat (path : String)
  | invalidDataType (enumName dataType : String)
  | missingValue (enumName : String)
  | undefinedType (typeName requiredBy : String)
  | duplicateType (name : String)
  | invalidLength (structName field : String)
  | unknownBackend (name : String)
  | config (problem : ConfigProblem)
  deriving DecidableEq

namespace Failure

/-- The words of a failure. -/
def message : Failure → String
  | io path cause => "I/O error at " ++ path.text ++ ": " ++ cause.message
  | parse path complaint => "failed to parse " ++ path ++ ": " ++ complaint.text
  | unsupportedFormat path => "unsupported schema format: " ++ path
  | invalidDataType enumName dataType =>
    "Invalid data type: " ++ dataType ++ " (in enum " ++ enumName ++ ")"
  | missingValue enumName => "not every value in " ++ enumName ++ " has a value!"
  | undefinedType typeName requiredBy =>
    typeName ++ " is not defined! This type is required for " ++ requiredBy
  | duplicateType name => "type " ++ name ++ " is declared more than once"
  | invalidLength structName field =>
    "field " ++ field ++ " in " ++ structName ++ " has an invalid array length of 0"
  | unknownBackend name => "unknown backend: " ++ name
  | config problem => "configuration error: " ++ problem.message

/-- The number of the kind of a failure. -/
def code : Failure → Nat
  | io .. => 1
  | parse .. => 2
  | unsupportedFormat .. => 3
  | invalidDataType .. => 4
  | missingValue .. => 5
  | undefinedType .. => 6
  | duplicateType .. => 7
  | invalidLength .. => 8
  | unknownBackend .. => 9
  | config .. => 10

/-- Whether a failure is about what a schema says, and not about reading or writing. -/
def isValidation : Failure → Bool
  | invalidDataType .. | missingValue .. | undefinedType .. | duplicateType ..
  | invalidLength .. => true
  | io .. | parse .. | unsupportedFormat .. | unknownBackend .. | config .. => false

/-- The failures of a schema are those with a code from 4 to 8. -/
theorem isValidation_iff_code (f : Failure) :
    f.isValidation = true ↔ 4 ≤ f.code ∧ f.code ≤ 8 := by
  cases f <;> simp [isValidation, code]

end Failure

end SchemaHeaders
