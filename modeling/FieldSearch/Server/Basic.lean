import FieldSearch.Repository.Client
import FieldSearch.Server.Settings
import FieldSearch.Tools.Call
import FieldSearch.Tools.Catalog

/-!
# Servers

A server offers all tools over one session, one client of a repository and one store. It is made
from settings; an endpoint that needs the name of a repository is refused without one, before the
page size is looked at.
-/

namespace FieldSearch

structure Server where
  name : Text
  client : Repository.Client Float
  pageSize : Int
  directory : Option Text

namespace Server

/-- The name of a server that is given none. -/
def unnamed : Text := "FastMCP"

/-- The least time between two requests of a server: none. -/
def interval : Float := 0

def ofSettings (s : Settings) : Except Failure Server := do
  let given (value : Option Text) : Option Text := value.filter (!List.isEmpty ·)
  let client ←
    (Repository.Client.ofEndpoint s.endpoint (given s.repository) (given s.token) interval).mapError
      .error
  let pageSize ← s.pageSizeNumber.mapError .crash
  return {
    name := if s.name.isEmpty then unnamed else s.name
    client, pageSize
    directory := given s.directory }

/-- Whether saved searches are kept in the home directory. -/
def usesDefaultDirectory (s : Server) : Bool := s.directory.isNone

/-- The tools in the order in which they are offered. -/
def tools (_ : Server) : List Text := Tool.all.map Tool.name

def session (s : Server) : Session := { pageSize := .int s.pageSize }

def defaultDirectory : Text := ".prismic-search-mcp"

end Server

end FieldSearch
