import FieldSearch.Text.Basic

/-!
# The catalogue of tools

Nine tools in two categories, in the order in which a server offers them, and the guide that goes
with them.
-/

namespace FieldSearch

inductive Tool where
  | search
  | suggest
  | listTypes
  | explain
  | save
  | listSaved
  | rename
  | forget
  | run
deriving DecidableEq

inductive ToolCategory where
  | search
  | saved
deriving DecidableEq

namespace ToolCategory

def all : List ToolCategory := [search, saved]

def id : ToolCategory → Text
  | search => "search"
  | saved => "saved_searches"

def title : ToolCategory → Text
  | search => "Search"
  | saved => "Saved searches"

def description : ToolCategory → Text
  | search => "Field:value search across document types"
  | saved => "Named, replayable search strings"

end ToolCategory

namespace Tool

def all : List Tool :=
  [search, suggest, listTypes, explain, save, listSaved, rename, forget, run]

def name : Tool → Text
  | search => "advanced_search"
  | suggest => "suggest_search_fields"
  | listTypes => "list_document_types"
  | explain => "explain_search"
  | save => "save_search"
  | listSaved => "list_saved_searches"
  | rename => "rename_saved_search"
  | forget => "forget_saved_search"
  | run => "run_saved_search"

def category : Tool → ToolCategory
  | search | suggest | listTypes | explain => .search
  | save | listSaved | rename | forget | run => .saved

def named? (name : Text) : Option Tool := all.find? (·.name = name)

def ofCategory (c : ToolCategory) : List Tool := all.filter (·.category = c)

/-- What is known of a tool: its name and its category. -/
def describe (t : Tool) : List (Text × Text) :=
  [("name", t.name), ("category_id", t.category.id), ("category_name", t.category.title),
    ("category_description", t.category.description)]

end Tool

def guide : Text :=
  Text.lines
    [[],
     "Prismic Advanced Search - find documents of any custom type by field values.",
     [],
     "## Writing a search",
     "Comma-separated `field: value` pairs, combined with AND:",
     [],
     "    advanced_search(query=\"first_name: Mark, last_name: Lee\")",
     "    advanced_search(query=\"category: news\")",
     [],
     "- Only document types having EVERY field are searched; others are skipped.",
     "- A field with a full-text variant matches by contains, otherwise by equality.",
     "- Input without \":\" is not a search. An empty query clears the search.",
     "- At most 50 documents per type are returned.",
     [],
     "## Finding field names",
     "- suggest_search_fields(query=\"category: news, auth\") completes the last segment.",
     "- list_document_types() shows every type, its fields and match capabilities.",
     "- explain_search(query=...) shows the GraphQL query without running it.",
     [],
     "## Saved searches",
     "save_search(query, name) -> list_saved_searches() -> run_saved_search(index)",
     "rename_saved_search(index, name) / forget_saved_search(index)",
     []]

end FieldSearch
