import TenantTables.Document.Scalar
import TenantTables.Text.Character

namespace TenantTables

structure Settings where
  databasePath : String := "recordbase.db"
  defaultPageSize : Int := 20
  maxPageSize : Int := 100
  exportLimit : Int := 5000
  importHeaderOffset : Int := 2
  logLevel : String := "INFO"
  deriving DecidableEq, Repr

namespace Settings

def toDocument (s : Settings) : Value :=
  .map [("database_path", .text s.databasePath), ("default_page_size", .int s.defaultPageSize),
    ("max_page_size", .int s.maxPageSize), ("export_limit", .int s.exportLimit),
    ("import_header_offset", .int s.importHeaderOffset), ("log_level", .text s.logLevel)]

def environmentStart : String := "recordbase_"

def ofEnvironment (environment : List (String × String)) : Entries :=
  Entries.ofList (environment.filterMap fun (name, text) =>
    let name := name.map Text.toLower
    if environmentStart.isPrefixOf name then
      some (String.ofList (name.toList.drop environmentStart.length), .text text)
    else none)

open Document in
def read (environment : List (String × String)) (arguments : Entries) : Reading Settings :=
  let es := (ofEnvironment environment).overlay arguments
  let defaults : Settings := {}
  Settings.mk <$> optional es "database_path" defaults.databasePath Reader.text
    <*> optional es "default_page_size" defaults.defaultPageSize (Reader.integerFrom 1)
    <*> optional es "max_page_size" defaults.maxPageSize (Reader.integerFrom 1)
    <*> optional es "export_limit" defaults.exportLimit (Reader.integerFrom 1)
    <*> optional es "import_header_offset" defaults.importHeaderOffset (Reader.integerFrom 0)
    <*> optional es "log_level" defaults.logLevel Reader.text

end Settings
end TenantTables
