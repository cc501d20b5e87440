/-!
# Complaints about documents

What is wrong with a document: a field that is missing, given twice or not known, or
anything else in words of its own. `Complaint.malformed` stands for every text that is no
document of the format, or has a value of the wrong kind.
-/

namespace SchemaHeaders

/-- What is wrong with a document. -/
inductive Complaint where
  | missingField (name : String)
  | duplicateField (name : String)
  | unknownField (name : String)
  | other (text : String)
  deriving DecidableEq

namespace Complaint

/-- The complaint about a text that does not have the form that is wanted. -/
def malformed : Complaint := other "malformed document"

/-- The words of a complaint. -/
def text : Complaint → String
  | missingField name => "missing field `" ++ name ++ "`"
  | duplicateField name => "duplicate field `" ++ name ++ "`"
  | unknownField name => "unknown field `" ++ name ++ "`"
  | other text => text

/-- The words of a complaint that is about one field. -/
def fieldText? : Complaint → Option String
  | other _ => none
  | complaint => some complaint.text

end Complaint

end SchemaHeaders
