import TenantTables.Document.Rules

namespace TenantTables

inductive RelationType where
  | oneToOne
  | oneToMany
  | manyToOne
  | manyToMany
  deriving DecidableEq, Repr

namespace RelationType

def name : RelationType → String
  | .oneToOne => "one-to-one"
  | .oneToMany => "one-to-many"
  | .manyToOne => "many-to-one"
  | .manyToMany => "many-to-many"

def names : List (String × RelationType) :=
  [.oneToOne, .oneToMany, .manyToOne, .manyToMany].map fun t => (t.name, t)

end RelationType

structure Relation where
  id : String
  type : RelationType
  fromTable : String
  toTable : String
  fromField : String
  toField : String
  deriving DecidableEq

structure RelationSpec where
  type : RelationType
  toTable : String
  fromField : String
  toField : String
  fromTable : Option String := none

namespace Document.Reader

def relationType : Reader RelationType := choice RelationType.names

def targetTable : Reader String := fun v =>
  if v.isNull then text v else identifier v

def fieldName (label : String) : Reader String := textWith (Ruling.nonBlank label)

def relationSpec : Reader RelationSpec :=
  document "RelationSpec" fun es =>
    (fun type toTable fromField toField fromTable _ =>
        { type, toTable, fromField, toField, fromTable })
      <$> required es "type" relationType
      <*> required es "to_table" targetTable
      <*> required es "from_field" (fieldName "from_field")
      <*> required es "to_field" (fieldName "to_field")
      <*> optional es "from_table" none (nullable identifier)
      <*> noOthers es ["type", "to_table", "from_field", "to_field", "from_table"]

def relation : Reader Relation :=
  document "RelationDefinition" fun es =>
    (fun id type fromTable toTable fromField toField _ =>
        { id, type, fromTable, toTable, fromField, toField })
      <$> required es "id" identifier
      <*> required es "type" relationType
      <*> required es "from_table" identifier
      <*> required es "to_table" identifier
      <*> required es "from_field" text
      <*> required es "to_field" text
      <*> noOthers es ["id", "type", "from_table", "to_table", "from_field", "to_field"]

end Document.Reader

def Relation.toDocument (r : Relation) : Value :=
  .map [("id", .text r.id), ("type", .text r.type.name), ("from_table", .text r.fromTable),
    ("to_table", .text r.toTable), ("from_field", .text r.fromField),
    ("to_field", .text r.toField)]

def RelationSpec.toDocument (r : RelationSpec) : Value :=
  .map [("type", .text r.type.name), ("to_table", .text r.toTable),
    ("from_field", .text r.fromField), ("to_field", .text r.toField),
    ("from_table", .ofOption .text r.fromTable)]

end TenantTables
