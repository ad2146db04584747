import FieldSearch.Entries

/-!
# Document types

A document type is the filterable view of one kind of content: the root field that lists it, its
text fields and the field shown as a preview. A field can be matched exactly, by full text under a
second name, or both ways.
-/

namespace FieldSearch

def fulltextSuffix : Text := "_fulltext"

def filterPrefix : Text := "Where"

def fulltextName (base : Text) : Text := base ++ fulltextSuffix

def isFulltextName (name : Text) : Bool := fulltextSuffix.isSuffixOf name

/-- The name of a field without one full-text ending. -/
def baseName (name : Text) : Text := name.stripSuffix fulltextSuffix

/-- The root field that lists the documents of a filter input type. -/
def listingName (inputType : Text) : Text :=
  "all" ++ inputType.stripPrefix filterPrefix ++ "s"

/-- The ways in which one field can be matched. -/
structure FieldSupport where
  name : Text
  exact : Bool := false
  fulltext : Bool := false
deriving DecidableEq

structure DocumentType where
  name : Text
  inputType : Text
  summaryField : Option Text := none
  fields : Entries FieldSupport := []
deriving DecidableEq

namespace DocumentType

def hasExact (t : DocumentType) (name : Text) : Bool :=
  (t.fields.get? name).any FieldSupport.exact

def hasFulltext (t : DocumentType) (name : Text) : Bool :=
  (t.fields.get? name).any FieldSupport.fulltext

/-- Whether the type can be filtered by the field in some way. -/
def covers (t : DocumentType) (name : Text) : Bool := t.hasExact name || t.hasFulltext name

/-- Adds one declared input field to what is known of its base field. -/
def declare (fields : Entries FieldSupport) (name : Text) : Entries FieldSupport :=
  let base := baseName name
  let known := (fields.get? base).getD { name := base }
  fields.put base
    (if isFulltextName name then { name := base, exact := known.exact, fulltext := true }
     else { name := base, exact := true, fulltext := known.fulltext })

/-- The preview field: the first one with full text, else the first one. -/
def summaryOf (names : List Text) : Option Text :=
  ((names.find? isFulltextName).map baseName) <|> names.head?

/-- The document type of a filter input type that declares the given text fields. -/
def ofDeclared (inputType : Text) (names : List Text) : DocumentType where
  name := listingName inputType
  inputType := inputType
  summaryField := summaryOf names
  fields := names.foldl declare []

end DocumentType

end FieldSearch
