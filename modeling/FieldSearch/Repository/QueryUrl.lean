import FieldSearch.GraphQL.Piece
import FieldSearch.Text.Percent

/-!
# Query URLs

Documents travel in the `query` parameter of a URL, compacted, since padding costs length. All
other parameters stay byte for byte as they are.
-/

namespace FieldSearch.Repository

def queryPart (document : Text) : Text := "query=" ++ Text.percentEncode document

def compactParameter (parameter : Text) : Text :=
  match parameter.cut '=' with
  | some (name, value) =>
    if name = "query" then queryPart (GraphQL.compact (Text.formDecode value)) else parameter
  | none => parameter

/-- Compacts the documents in the query string of a URL. -/
def compactUrl (url : Text) : Text :=
  match url.cut '?' with
  | none => url
  | some (path, query) =>
    path ++ "?" ++ Text.join ['&'] ((query.splitOn '&').map compactParameter)

def queryUrl (endpoint document : Text) : Text := compactUrl (endpoint ++ "?" ++ queryPart document)

end FieldSearch.Repository
