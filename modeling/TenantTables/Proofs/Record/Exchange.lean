import TenantTables.Proofs.Schema.Exchange
import TenantTables.Record

namespace TenantTables

open Document Document.Reader

structure Record.IsValid (r : Record) : Prop where
  id : Identifier.IsNormal r.id
  tableId : Identifier.IsNormal r.tableId

/--
A record that can leave the program and come back: its data is made of what JSON can write, and its times are on
clocks that are whole minutes away from UTC.
-/
structure Record.IsPortable (r : Record) : Prop where
  data : (Value.map r.data).isJson = true
  createdAt : r.createdAt.IsOnMinute
  updatedAt : r.updatedAt.IsOnMinute
  deletedAt : ∀ m, r.deletedAt = some m → m.IsOnMinute

namespace Record

def exchangeEntries (r : Record) : Entries :=
  [("schema_version", .text schemaVersion), ("id", .text r.id), ("table_id", .text r.tableId),
   ("data", .map r.data), ("created_by", .ofOption .text r.createdBy),
   ("updated_by", .ofOption .text r.updatedBy), ("created_at", .text r.createdAt.printExchange),
   ("updated_at", .text r.updatedAt.printExchange),
   ("deleted_at", .ofOption (fun m => .text m.printExchange) r.deletedAt)]

theorem toCompact_of_isJson {r : Record} (h : (Value.map r.data).isJson = true) :
    r.toCompact = .map r.exchangeEntries.present := by
  have hdata : Value.exchangeEntries r.data = r.data := by
    have hmap := Value.exchange_of_isJson h
    rw [Value.exchange] at hmap
    exact Value.map.inj hmap
  unfold toCompact toEntries exchangeEntries
  cases r.createdBy <;> cases r.updatedBy <;> cases r.deletedAt <;>
    simp [Entries.present, Value.ofOption, Value.isNull, Value.exchange, Value.exchangeEntries, hdata]

end Record

namespace Document.Reader

variable {r : Record} {v : Value}

theorem record_isValid (h : record v = .value r) : r.IsValid := by
  obtain ⟨⟨form, r⟩, hparts, h⟩ := Reading.andThen_eq_value.mp h
  obtain ⟨_, -, rfl⟩ := Reading.map_eq_value.mp h
  cases v with
  | map es =>
    simp only [withVersion, document, Reading.seq_eq_value, Reading.map_eq_value] at hparts
    obtain ⟨_, _, ⟨_, deletedAt, ⟨_, updatedAt, ⟨_, createdAt, ⟨_, updatedBy, ⟨_, createdBy, ⟨_, data, ⟨_, tableId,
      ⟨_, id, ⟨form, -, rfl⟩, hid, rfl⟩, htable, rfl⟩, -, rfl⟩, -, rfl⟩, -, rfl⟩, -, rfl⟩, -, rfl⟩, -, rfl⟩, -,
      hmk⟩ := hparts
    obtain ⟨-, rfl⟩ := Prod.mk.inj hmk
    exact ⟨isNormal_of_required hid, isNormal_of_required htable⟩
  | _ => simp [withVersion, document, Reading.mismatch] at hparts

theorem record_toCompact (hr : r.IsValid) (h : r.IsPortable) : record r.toCompact = .value r := by
  rw [Record.toCompact_of_isJson h.data]
  obtain ⟨es, hes⟩ : ∃ es, es = r.exchangeEntries := ⟨_, rfl⟩
  have hget (k : String) (v : Value) (h : r.exchangeEntries.get? k = some v) : es.get? k = some v := hes ▸ h
  have hkeys : es.keys = recordKeys := by
    rw [hes]
    rfl
  have hnodup : es.keys.Nodup := by
    rw [hkeys]
    decide
  have hform : versioned Record.schemaVersion es.present = .value Record.schemaVersion :=
    optional_present hnodup (hget "schema_version" _ rfl) rfl rfl
  have hid : required es.present "id" identifier = .value r.id :=
    required_present hnodup (hget "id" _ rfl) rfl (identifier_of_isNormal hr.id)
  have htable : required es.present "table_id" identifier = .value r.tableId :=
    required_present hnodup (hget "table_id" _ rfl) rfl (identifier_of_isNormal hr.tableId)
  have hdata : optional es.present "data" [] recordData = .value r.data :=
    optional_present hnodup (hget "data" _ rfl) rfl rfl
  have hcreatedBy : optional es.present "created_by" none (nullable text) = .value r.createdBy :=
    optional_present_ofOption hnodup (hget "created_by" _ rfl) fun s _ => ⟨rfl, rfl⟩
  have hupdatedBy : optional es.present "updated_by" none (nullable text) = .value r.updatedBy :=
    optional_present_ofOption hnodup (hget "updated_by" _ rfl) fun s _ => ⟨rfl, rfl⟩
  have hcreatedAt : required es.present "created_at" (moment "created_at") = .value r.createdAt :=
    required_present hnodup (hget "created_at" _ rfl) rfl (moment_printExchange h.createdAt)
  have hupdatedAt : required es.present "updated_at" (moment "updated_at") = .value r.updatedAt :=
    required_present hnodup (hget "updated_at" _ rfl) rfl (moment_printExchange h.updatedAt)
  have hdeletedAt : optional es.present "deleted_at" none (nullable (moment "deleted_at")) = .value r.deletedAt :=
    optional_present_ofOption hnodup (hget "deleted_at" _ rfl) fun m hm => ⟨rfl, moment_printExchange (h.deletedAt m hm)⟩
  have hothers : noOthers es.present recordKeys = .value () :=
    noOthers_of_subset (hkeys ▸ Entries.keys_present_subset es)
  have hversioned : es.present.contains "schema_version" = true := by
    rw [← Entries.isSome_get?, Entries.get?_present_of_some hnodup (hget "schema_version" _ rfl) rfl]
    rfl
  rw [← hes]
  unfold record
  rw [withVersion_of_contains hversioned]
  dsimp only [document]
  rw [hform, hid, htable, hdata, hcreatedBy, hupdatedBy, hcreatedAt, hupdatedAt, hdeletedAt, hothers]
  rfl

theorem exchange_round_trip :
    (∀ v t, table v = .value t → t.IsPortable → table t.toCompact = .value t) ∧
      ∀ v r, record v = .value r → r.IsPortable → record r.toCompact = .value r :=
  ⟨fun _ _ ht h => table_toCompact (table_isValid ht) h, fun _ _ hr h => record_toCompact (record_isValid hr) h⟩

theorem exchange_round_trip_of_deleted :
    let id := "00000000-0000-4000-8000-000000000001"
    let away : Moment := { (default : Moment) with offset := some 19800000000 }
    let f : Field :=
      { id, name := "n", displayName := "N", type := .text, defaultValue := .list [.null, .int 1],
        validation := some { max := some (.ofInt 10), pattern := some "a+" } }
    let t : Table :=
      { id, tenantId := "acme", name := "t", displayName := "T", fields := [f], createdAt := away,
        updatedAt := away }
    let r : Record :=
      { id, tableId := id, data := [("n", .map [("m", .null)])], createdBy := some "me", createdAt := away,
        updatedAt := away, deletedAt := some { away with offset := some 0 } }
    (t.IsPortable ∧ table t.toCompact = .value t) ∧ r.IsPortable ∧ record r.toCompact = .value r := by
  intro id away f t r
  have hread : table t.toDocument = .value t := Reading.toOutcome_eq_ok.mp (by decide +kernel)
  have hread' : record r.toDocument = .value r := Reading.toOutcome_eq_ok.mp (by decide +kernel)
  have haway : away.IsOnMinute := ⟨19800000000, rfl, by decide, by decide⟩
  have htable : t.IsPortable := ⟨by decide +kernel, haway, haway⟩
  have hrecord : r.IsPortable := by
    refine ⟨by decide +kernel, haway, haway, ?_⟩
    rintro m ⟨⟩
    exact ⟨0, rfl, by decide, by decide⟩
  exact ⟨⟨htable, exchange_round_trip.1 _ t hread htable⟩, hrecord, exchange_round_trip.2 _ r hread' hrecord⟩

end Document.Reader
end TenantTables
