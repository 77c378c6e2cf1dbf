import TenantTables.Document.Rules

namespace TenantTables

inductive SortOrder where
  | asc
  | desc
  deriving DecidableEq, Repr

namespace SortOrder

def name : SortOrder → String
  | .asc => "asc"
  | .desc => "desc"

def names : List (String × SortOrder) :=
  [.asc, .desc].map fun o => (o.name, o)

end SortOrder

inductive TimestampColumn where
  | createdAt
  | updatedAt
  deriving DecidableEq, Repr

def TimestampColumn.name : TimestampColumn → String
  | .createdAt => "created_at"
  | .updatedAt => "updated_at"

structure SortSpec where
  field : String
  order : SortOrder := .asc
  deriving DecidableEq, Repr

namespace SortSpec

def descending (s : SortSpec) : Bool := s.order = .desc

def timestampColumn? (s : SortSpec) : Option TimestampColumn :=
  if s.field = "created_at" ∨ s.field = "createdAt" then some .createdAt
  else if s.field = "updated_at" ∨ s.field = "updatedAt" then some .updatedAt
  else none

def toDocument (s : SortSpec) : Value :=
  .map [("field", .text s.field), ("order", .text s.order.name)]

end SortSpec

structure RecordQuery where
  filters : Option Entries := none
  sort : Option SortSpec := none
  page : Int := 1
  limit : Option Int := none

namespace RecordQuery

def hasFilters (q : RecordQuery) : Bool :=
  !(q.filters.getD []).isEmpty

def toDocument (q : RecordQuery) : Value :=
  .map [("filters", .ofOption .map q.filters), ("sort", .ofOption (·.toDocument) q.sort),
    ("page", .int q.page), ("limit", .ofOption .int q.limit)]

end RecordQuery

structure QueryPage where
  records : List Entries
  total : Int
  page : Int
  totalPages : Int
  deriving DecidableEq

def QueryPage.toDocument (p : QueryPage) : Value :=
  .map [("records", .list (p.records.map .map)), ("total", .int p.total), ("page", .int p.page),
    ("total_pages", .int p.totalPages)]

namespace Document.Reader

def sortSpec : Reader SortSpec :=
  document "SortSpec" fun es =>
    (fun field order _ => { field, order })
      <$> required es "field" (textWith (Ruling.nonBlank "sort field"))
      <*> optional es "order" .asc (choice SortOrder.names)
      <*> noOthers es ["field", "order"]

def filters : Reader (Option Entries)
  | .null => .value none
  | .map es => .value (some es)
  | _ => .halted (.notMapping "filters")

def recordQuery : Reader RecordQuery :=
  document "RecordQuery" fun es =>
    (fun filters sort page limit _ => { filters, sort, page, limit })
      <$> optional es "filters" none filters
      <*> optional es "sort" none (nullable sortSpec)
      <*> optional es "page" 1 (integerFrom 1)
      <*> optional es "limit" none (nullable (integerFrom 1))
      <*> noOthers es ["filters", "sort", "page", "limit"]

def queryPage : Reader QueryPage :=
  document "QueryPage" fun es =>
    QueryPage.mk <$> required es "records" (list entries)
      <*> required es "total" (integerFrom 0)
      <*> required es "page" (integerFrom 1)
      <*> required es "total_pages" (integerFrom 0)

end Document.Reader

end TenantTables
