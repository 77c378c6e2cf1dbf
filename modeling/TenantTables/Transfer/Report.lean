import TenantTables.Document.Scalar

namespace TenantTables

structure ImportRowError where
  row : Int
  error : String
  deriving DecidableEq, Repr

structure ImportResult where
  imported : Int
  errors : List ImportRowError := []
  deriving DecidableEq, Repr

structure ExportResult where
  header : List String
  rows : List Entries := []
  deriving DecidableEq

def ImportRowError.toDocument (e : ImportRowError) : Value :=
  .map [("row", .int e.row), ("error", .text e.error)]

def ImportResult.toDocument (r : ImportResult) : Value :=
  .map [("imported", .int r.imported), ("errors", .list (r.errors.map (·.toDocument)))]

def ExportResult.toDocument (r : ExportResult) : Value :=
  .map [("header", .list (r.header.map .text)), ("rows", .list (r.rows.map .map))]

namespace Document.Reader

def importRowError : Reader ImportRowError :=
  document "ImportRowError" fun es =>
    ImportRowError.mk <$> required es "row" (integerFrom 0) <*> required es "error" text

def importResult : Reader ImportResult :=
  document "ImportResult" fun es =>
    ImportResult.mk <$> required es "imported" (integerFrom 0)
      <*> optional es "errors" [] (list importRowError)

def exportResult : Reader ExportResult :=
  document "ExportResult" fun es =>
    ExportResult.mk <$> required es "header" (list text)
      <*> optional es "rows" [] (list entries)

end Document.Reader

end TenantTables
