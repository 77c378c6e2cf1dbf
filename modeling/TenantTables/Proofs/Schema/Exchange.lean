import TenantTables.Proofs.Document.Compact
import TenantTables.Proofs.Schema.Field
import TenantTables.Proofs.Value.Alike
import TenantTables.Schema.Table

namespace TenantTables

open Document Document.Reader

def Identifier.IsNormal (s : String) : Prop :=
  ∃ n, s = Identifier.print n

theorem Document.Reader.identifier_of_isNormal {s : String} (h : Identifier.IsNormal s) :
    identifier (.text s) = .value s := by
  obtain ⟨n, rfl⟩ := h
  exact identifier_print n

def Constraints.IsValid (c : Constraints) : Prop :=
  ∀ p, c.pattern = some p → ∃ tree, Pattern.read p = .ok tree

structure Field.IsValid (f : Field) : Prop where
  id : Identifier.IsNormal f.id
  name : Text.isSnakeCase f.name = true
  displayName : Text.isBlank f.displayName = false
  formula : formulaRule f.type f.formula = .ok ()
  validation : ∀ c, f.validation = some c → c.IsValid

structure Relation.IsValid (r : Relation) : Prop where
  id : Identifier.IsNormal r.id
  fromTable : Identifier.IsNormal r.fromTable
  toTable : Identifier.IsNormal r.toTable

structure Table.IsValid (t : Table) : Prop where
  id : Identifier.IsNormal t.id
  tenantId : Text.isBlank t.tenantId = false
  name : Text.isSnakeCase t.name = true
  displayName : Text.isBlank t.displayName = false
  fields : ∀ f ∈ t.fields, f.IsValid
  relations : ∀ r ∈ t.relations, r.IsValid
  version : 0 ≤ t.version

theorem RelationType.lookup_name (t : RelationType) : names.lookup t.name = some t := by
  cases t <;> rfl

namespace Document.Reader

theorem exists_of_textWith {rule : String → Except String String} {v : Value} {s : String}
    (h : textWith rule v = .value s) : ∃ s', rule s' = .ok s := by
  obtain ⟨s', -, h⟩ := Reading.andThen_eq_value.mp h
  exact ⟨s', Reading.require_eq_value.mp h⟩

theorem not_isBlank_of_nonBlank {label : String} {v : Value} {s : String}
    (h : textWith (Ruling.nonBlank label) v = .value s) : Text.isBlank s = false := by
  obtain ⟨s', hs⟩ := exists_of_textWith h
  obtain ⟨hblank, rfl⟩ := Ruling.nonBlank_ok hs
  exact hblank

theorem isSnakeCase_of_snakeCase {label : String} {v : Value} {s : String}
    (h : textWith (Ruling.snakeCase label) v = .value s) : Text.isSnakeCase s = true := by
  obtain ⟨s', hs⟩ := exists_of_textWith h
  obtain ⟨hsnake, rfl⟩ := Ruling.snakeCase_ok hs
  exact hsnake

theorem read_of_pattern {v : Value} {p : String} (h : pattern v = .value p) : ∃ tree, Pattern.read p = .ok tree := by
  obtain ⟨s, -, h⟩ := Reading.andThen_eq_value.mp h
  unfold ruled at h
  cases hread : Pattern.read s with
  | ok tree =>
    obtain rfl : s = p := by simpa [hread] using h
    exact ⟨tree, hread⟩
  | error e =>
    simp only [hread] at h
    split at h <;> simp_all [Reading.mismatch]

theorem constraintsUpdate_isValid {v : Value} {u : ConstraintsUpdate} (h : constraintsUpdate v = .value u) :
    u.toConstraints.IsValid := by
  cases v with
  | map es =>
    simp only [constraintsUpdate, document, Reading.seq_eq_value, Reading.map_eq_value] at h
    obtain ⟨_, _, ⟨_, part, ⟨_, _, ⟨_, -, rfl⟩, -, rfl⟩, hpart, rfl⟩, -, rfl⟩ := h
    intro p hp
    obtain ⟨v, hv⟩ := exists_of_given hpart hp
    exact read_of_pattern hv
  | _ => simp [constraintsUpdate, document, Reading.mismatch] at h

theorem constraints_isValid {v : Value} {c : Constraints} (h : constraints v = .value c) : c.IsValid := by
  obtain ⟨u, hu, rfl⟩ := Reading.map_eq_value.mp h
  exact constraintsUpdate_isValid hu

theorem isNormal_of_required {es : Entries} {key s : String} (h : required es key identifier = .value s) :
    Identifier.IsNormal s := by
  obtain ⟨v, -, h⟩ := required_eq_value.mp h
  exact identifier_eq_value h

theorem field_isValid {v : Value} {f : Field} (h : field v = .value f) : f.IsValid := by
  obtain ⟨f, hparts, h⟩ := Reading.andThen_eq_value.mp h
  obtain ⟨_, hrule, rfl⟩ := Reading.map_eq_value.mp h
  cases v with
  | map es =>
    obtain ⟨_, spec, hmk, hspec, rfl⟩ := Reading.seq_eq_value.mp hparts
    obtain ⟨id, hid, rfl⟩ := Reading.map_eq_value.mp hmk
    obtain ⟨hname, hdisplay, -, -, -, -, hvalidation, -⟩ := fieldParts_eq_value hspec
    obtain ⟨_, -, hname⟩ := required_eq_value.mp hname
    obtain ⟨_, -, hdisplay⟩ := required_eq_value.mp hdisplay
    refine
      { id := isNormal_of_required hid
        name := isSnakeCase_of_snakeCase hname
        displayName := not_isBlank_of_nonBlank hdisplay
        formula := Reading.require_eq_value.mp hrule
        validation := ?_ }
    intro c hc
    rw [show spec.validation = some c from hc] at hvalidation
    obtain ⟨_, hconstraints⟩ := exists_of_optional hvalidation
    exact constraints_isValid hconstraints
  | _ => simp [document, Reading.mismatch] at hparts

theorem relation_isValid {v : Value} {r : Relation} (h : relation v = .value r) : r.IsValid := by
  cases v with
  | map es =>
    simp only [relation, document, Reading.seq_eq_value, Reading.map_eq_value] at h
    obtain ⟨_, _, ⟨_, _, ⟨_, _, ⟨_, toTable, ⟨_, fromTable, ⟨_, _, ⟨id, hid, rfl⟩, -, rfl⟩, hfrom, rfl⟩, hto, rfl⟩,
      -, rfl⟩, -, rfl⟩, -, rfl⟩ := h
    exact ⟨isNormal_of_required hid, isNormal_of_required hfrom, isNormal_of_required hto⟩
  | _ => simp [relation, document, Reading.mismatch] at h

theorem le_of_integerFrom {bound i : Int} {v : Value} (h : integerFrom bound v = .value i) : bound ≤ i := by
  obtain ⟨j, -, h⟩ := Reading.andThen_eq_value.mp h
  split at h
  . next hle => exact Reading.value.inj h ▸ hle
  . simp [Reading.mismatch] at h

theorem table_isValid {v : Value} {t : Table} (h : table v = .value t) : t.IsValid := by
  obtain ⟨⟨form, t⟩, hparts, h⟩ := Reading.andThen_eq_value.mp h
  obtain ⟨_, -, rfl⟩ := Reading.map_eq_value.mp h
  cases v with
  | map es =>
    simp only [withVersion, document, Reading.seq_eq_value, Reading.map_eq_value] at hparts
    obtain ⟨_, _, ⟨_, updatedAt, ⟨_, createdAt, ⟨_, version, ⟨_, relations, ⟨_, fields, ⟨_, description,
      ⟨_, displayName, ⟨_, name, ⟨_, tenantId, ⟨_, id, ⟨form, -, rfl⟩, hid, rfl⟩, htenant, rfl⟩, hname, rfl⟩,
      hdisplay, rfl⟩, -, rfl⟩, hfields, rfl⟩, hrelations, rfl⟩, hversion, rfl⟩, -, rfl⟩, -, rfl⟩, -, hmk⟩ := hparts
    obtain ⟨-, rfl⟩ := Prod.mk.inj hmk
    obtain ⟨_, -, htenant⟩ := required_eq_value.mp htenant
    obtain ⟨_, -, hname⟩ := required_eq_value.mp hname
    obtain ⟨_, -, hdisplay⟩ := required_eq_value.mp hdisplay
    refine
      { id := isNormal_of_required hid
        tenantId := not_isBlank_of_nonBlank htenant
        name := isSnakeCase_of_snakeCase hname
        displayName := not_isBlank_of_nonBlank hdisplay
        fields := ?_
        relations := ?_
        version := ?_ }
    . rcases optional_eq_value.mp hfields with ⟨-, rfl⟩ | ⟨_, -, hfields⟩
      . exact fun _ hf => absurd hf List.not_mem_nil
      . intro f hf
        obtain ⟨_, hf⟩ := exists_of_mem_list hfields f hf
        exact field_isValid hf
    . rcases optional_eq_value.mp hrelations with ⟨-, rfl⟩ | ⟨_, -, hrelations⟩
      . exact fun _ hr => absurd hr List.not_mem_nil
      . intro r hr
        obtain ⟨_, hr⟩ := exists_of_mem_list hrelations r hr
        exact relation_isValid hr
    . rcases optional_eq_value.mp hversion with ⟨-, rfl⟩ | ⟨_, -, hversion⟩
      . exact Int.le_refl 0
      . exact le_of_integerFrom hversion
  | _ => simp [withVersion, document, Reading.mismatch] at hparts

theorem textWith_of_ok {rule : String → Except String String} {s : String} (h : rule s = .ok s) :
    textWith rule (.text s) = .value s :=
  Reading.andThen_eq_value.mpr ⟨s, rfl, Reading.require_eq_value.mpr h⟩

theorem nonBlank_of_not_isBlank {label s : String} (h : Text.isBlank s = false) :
    Ruling.nonBlank label s = .ok s := by
  rw [Ruling.nonBlank, h]
  rfl

theorem snakeCase_of_isSnakeCase {label s : String} (h : Text.isSnakeCase s = true) :
    Ruling.snakeCase label s = .ok s := by
  rw [Ruling.snakeCase, if_pos h]

theorem pattern_of_read {p : String} (h : ∃ tree, Pattern.read p = .ok tree) : pattern (.text p) = .value p := by
  obtain ⟨tree, htree⟩ := h
  refine Reading.andThen_eq_value.mpr ⟨p, rfl, ?_⟩
  unfold ruled
  rw [htree]

theorem constraints_toCompact {c : Constraints} (h : c.IsValid) : constraints c.toCompact = .value c := by
  have hnodup : c.toEntries.keys.Nodup := by
    show ["min", "max", "pattern"].Nodup
    decide
  have hmin : given c.toEntries.present "min" (nullable number) = .value (c.min.map some) :=
    given_present_ofOption hnodup rfl fun x _ => ⟨rfl, rfl⟩
  have hmax : given c.toEntries.present "max" (nullable number) = .value (c.max.map some) :=
    given_present_ofOption hnodup rfl fun x _ => ⟨rfl, rfl⟩
  have hpattern : given c.toEntries.present "pattern" (nullable pattern) = .value (c.pattern.map some) :=
    given_present_ofOption hnodup rfl fun p hp => ⟨rfl, pattern_of_read (h p hp)⟩
  have hothers : noOthers c.toEntries.present ["min", "max", "pattern"] = .value () :=
    noOthers_of_subset (Entries.keys_present_subset c.toEntries)
  have hjoin {β : Type} (o : Option β) : (o.map some).join = o := by
    cases o <;> rfl
  have hupdate : constraintsUpdate c.toCompact =
      .value { min := c.min.map some, max := c.max.map some, pattern := c.pattern.map some } := by
    unfold constraintsUpdate Constraints.toCompact document
    dsimp only
    rw [hmin, hmax, hpattern, hothers]
    rfl
  rw [constraints, hupdate]
  show Reading.value (ConstraintsUpdate.toConstraints _) = _
  unfold ConstraintsUpdate.toConstraints
  simp only [hjoin]

theorem fieldParts_present {es : Entries} {f : Field} {others : List String} (hf : f.IsValid) (hnodup : es.keys.Nodup)
    (hothers : es.keys ⊆ others ++ fieldKeys)
    (hget : ∀ k v, k ≠ "validation" → f.toEntries.get? k = some v → es.get? k = some v)
    (hvalidation : es.get? "validation" = some (.ofOption (·.toCompact) f.validation)) :
    fieldParts (textWith (Ruling.snakeCase "field name")) es.present others = .value f.toSpec := by
  have hname : required es.present "name" (textWith (Ruling.snakeCase "field name")) = .value f.name :=
    required_present hnodup (hget "name" _ (by decide) rfl) rfl
      (textWith_of_ok (snakeCase_of_isSnakeCase hf.name))
  have hdisplay : required es.present "display_name" displayName = .value f.displayName :=
    required_present hnodup (hget "display_name" _ (by decide) rfl) rfl
      (textWith_of_ok (nonBlank_of_not_isBlank hf.displayName))
  have htype : required es.present "type" fieldType = .value f.type :=
    required_present hnodup (hget "type" _ (by decide) rfl) rfl (choice_of_lookup f.type.lookup_name)
  have hrequired : optional es.present "required" false boolean = .value f.required :=
    optional_present hnodup (hget "required" _ (by decide) rfl) rfl rfl
  have hunique : optional es.present "unique" none (nullable boolean) = .value f.unique :=
    optional_present_ofOption hnodup (hget "unique" _ (by decide) rfl) fun b _ => ⟨rfl, rfl⟩
  have hdefault : optional es.present "default_value" .null any = .value f.defaultValue := by
    have hv := hget "default_value" f.defaultValue (by decide) rfl
    cases hnull : f.defaultValue.isNull with
    | true =>
      rw [Value.isNull_iff.mp hnull] at hv ⊢
      exact optional_eq_value.mpr (.inl ⟨Entries.get?_present_of_null hnodup hv, rfl⟩)
    | false => exact optional_present hnodup hv hnull rfl
  have hconstraints : optional es.present "validation" none (nullable constraints) = .value f.validation :=
    optional_present_ofOption hnodup hvalidation fun c hc => ⟨rfl, constraints_toCompact (hf.validation c hc)⟩
  have hformula : optional es.present "formula" none (nullable text) = .value f.formula :=
    optional_present_ofOption hnodup (hget "formula" _ (by decide) rfl) fun s _ => ⟨rfl, rfl⟩
  have hkeys : noOthers es.present (others ++ fieldKeys) = .value () :=
    noOthers_of_subset (List.Subset.trans (Entries.keys_present_subset es) hothers)
  unfold fieldParts
  rw [hname, hdisplay, htype, hrequired, hunique, hdefault, hconstraints, hformula, hkeys]
  rfl

theorem field_toCompact {f : Field} (hf : f.IsValid) : field f.toCompact = .value f := by
  obtain ⟨es, hes⟩ : ∃ es, es = f.toEntries.put "validation" (.ofOption (·.toCompact) f.validation) := ⟨_, rfl⟩
  have hcompact : f.toCompact = .map es.present := by rw [hes]; rfl
  have hkeys : es.keys = ["id"] ++ fieldKeys := by
    have hcontains : f.toEntries.contains "validation" = true := rfl
    rw [hes, Entries.keys_put, if_pos hcontains]
    rfl
  have hnodup : es.keys.Nodup := by
    rw [hkeys]
    decide
  have hget (k : String) (v : Value) (hk : k ≠ "validation") (h : f.toEntries.get? k = some v) :
      es.get? k = some v := by
    rw [hes, Entries.get?_put, if_neg hk, h]
  have hid : required es.present "id" identifier = .value f.id :=
    required_present hnodup (hget "id" (.text f.id) (by decide) rfl) rfl (identifier_of_isNormal hf.id)
  have hspec : fieldParts (textWith (Ruling.snakeCase "field name")) es.present ["id"] = .value f.toSpec := by
    refine fieldParts_present hf hnodup (by rw [hkeys]; exact List.Subset.refl _) hget ?_
    rw [hes, Entries.get?_put, if_pos rfl]
  rw [hcompact]
  refine Reading.andThen_eq_value.mpr ⟨f, ?_, ?_⟩
  . show (fun id (spec : FieldSpec) => spec.toField id) <$> required es.present "id" identifier <*>
      fieldParts (textWith (Ruling.snakeCase "field name")) es.present ["id"] = .value f
    rw [hid, hspec]
    rfl
  . rw [hf.formula]
    rfl

theorem relation_toDocument {r : Relation} (hr : r.IsValid) : relation r.toDocument = .value r := by
  obtain ⟨es, hes⟩ : ∃ es : Entries, r.toDocument = .map es ∧ es.keys ⊆ ["id", "type", "from_table", "to_table",
      "from_field", "to_field"] ∧ es.get? "id" = some (.text r.id) ∧ es.get? "type" = some (.text r.type.name) ∧
      es.get? "from_table" = some (.text r.fromTable) ∧ es.get? "to_table" = some (.text r.toTable) ∧
      es.get? "from_field" = some (.text r.fromField) ∧ es.get? "to_field" = some (.text r.toField) :=
    ⟨_, rfl, List.Subset.refl _, rfl, rfl, rfl, rfl, rfl, rfl⟩
  obtain ⟨hdocument, hkeys, hid, htype, hfromTable, htoTable, hfromField, htoField⟩ := hes
  have hid : required es "id" identifier = .value r.id :=
    required_eq_value.mpr ⟨_, hid, identifier_of_isNormal hr.id⟩
  have htype : required es "type" relationType = .value r.type :=
    required_eq_value.mpr ⟨_, htype, choice_of_lookup r.type.lookup_name⟩
  have hfromTable : required es "from_table" identifier = .value r.fromTable :=
    required_eq_value.mpr ⟨_, hfromTable, identifier_of_isNormal hr.fromTable⟩
  have htoTable : required es "to_table" identifier = .value r.toTable :=
    required_eq_value.mpr ⟨_, htoTable, identifier_of_isNormal hr.toTable⟩
  have hfromField : required es "from_field" text = .value r.fromField :=
    required_eq_value.mpr ⟨_, hfromField, rfl⟩
  have htoField : required es "to_field" text = .value r.toField :=
    required_eq_value.mpr ⟨_, htoField, rfl⟩
  rw [hdocument, relation, document, hid, htype, hfromTable, htoTable, hfromField, htoField, noOthers_of_subset hkeys]
  rfl

theorem withVersion_of_contains {expected : String} {es : Entries} (h : es.contains "schema_version" = true) :
    withVersion expected (.map es) = .map es := by
  rw [withVersion, if_pos h]

theorem table_entriesWith {t : Table} {field' : Field → Value} {moment' : Moment → Value} (ht : t.IsValid)
    (hfield : ∀ f ∈ t.fields, field (field' f) = .value f)
    (hcreated : moment "created_at" (moment' t.createdAt) = .value t.createdAt ∧ (moment' t.createdAt).isNull = false)
    (hupdated : moment "updated_at" (moment' t.updatedAt) = .value t.updatedAt ∧ (moment' t.updatedAt).isNull = false) :
    table (.map (t.entriesWith field' moment').present) = .value t := by
  obtain ⟨es, hes⟩ : ∃ es, es = t.entriesWith field' moment' := ⟨_, rfl⟩
  have hget (k : String) (v : Value) (h : (t.entriesWith field' moment').get? k = some v) : es.get? k = some v :=
    hes ▸ h
  have hkeys : es.keys = tableKeys := by
    rw [hes]
    rfl
  have hnodup : es.keys.Nodup := by
    rw [hkeys]
    decide
  have hform : versioned Table.schemaVersion es.present = .value Table.schemaVersion :=
    optional_present hnodup (hget "schema_version" _ rfl) rfl rfl
  have hid : required es.present "id" identifier = .value t.id :=
    required_present hnodup (hget "id" _ rfl) rfl (identifier_of_isNormal ht.id)
  have htenant : required es.present "tenant_id" (textWith (Ruling.nonBlank "tenant_id")) = .value t.tenantId :=
    required_present hnodup (hget "tenant_id" _ rfl) rfl (textWith_of_ok (nonBlank_of_not_isBlank ht.tenantId))
  have hname : required es.present "name" (textWith (Ruling.snakeCase "table name")) = .value t.name :=
    required_present hnodup (hget "name" _ rfl) rfl (textWith_of_ok (snakeCase_of_isSnakeCase ht.name))
  have hdisplay : required es.present "display_name" displayName = .value t.displayName :=
    required_present hnodup (hget "display_name" _ rfl) rfl
      (textWith_of_ok (nonBlank_of_not_isBlank ht.displayName))
  have hdescription : optional es.present "description" none (nullable text) = .value t.description :=
    optional_present_ofOption hnodup (hget "description" _ rfl) fun s _ => ⟨rfl, rfl⟩
  have hfields : optional es.present "fields" [] (list field) = .value t.fields :=
    optional_present hnodup (hget "fields" _ rfl) rfl (list_map hfield)
  have hrelations : optional es.present "relations" [] (list relation) = .value t.relations :=
    optional_present hnodup (hget "relations" _ rfl) rfl (list_map fun r hr => relation_toDocument (ht.relations r hr))
  have hversion : optional es.present "version" 0 (integerFrom 0) = .value t.version := by
    refine optional_present hnodup (hget "version" _ rfl) rfl ?_
    exact Reading.andThen_eq_value.mpr ⟨t.version, rfl, if_pos ht.version⟩
  have hcreated : required es.present "created_at" (moment "created_at") = .value t.createdAt :=
    required_present hnodup (hget "created_at" _ rfl) hcreated.2 hcreated.1
  have hupdated : required es.present "updated_at" (moment "updated_at") = .value t.updatedAt :=
    required_present hnodup (hget "updated_at" _ rfl) hupdated.2 hupdated.1
  have hothers : noOthers es.present tableKeys = .value () :=
    noOthers_of_subset (hkeys ▸ Entries.keys_present_subset es)
  have hversioned : es.present.contains "schema_version" = true := by
    rw [← Entries.isSome_get?, Entries.get?_present_of_some hnodup (hget "schema_version" _ rfl) rfl]
    rfl
  rw [← hes]
  unfold table
  rw [withVersion_of_contains hversioned]
  dsimp only [document]
  rw [hform, hid, htenant, hname, hdisplay, hdescription, hfields, hrelations, hversion, hcreated, hupdated, hothers]
  rfl

end Document.Reader

structure Table.IsPortable (t : Table) : Prop where
  defaults : ∀ f ∈ t.fields, f.defaultValue.isJson = true
  createdAt : t.createdAt.IsOnMinute
  updatedAt : t.updatedAt.IsOnMinute

theorem Document.Reader.table_toCompact {t : Table} (ht : t.IsValid) (h : t.IsPortable) :
    table t.toCompact = .value t := by
  refine table_entriesWith ht ?_ ⟨moment_printExchange h.createdAt, rfl⟩ ⟨moment_printExchange h.updatedAt, rfl⟩
  intro f hf
  have hexchange : f.exchange = f := by
    rw [Field.exchange, Value.exchange_of_isJson (h.defaults f hf)]
  rw [hexchange]
  exact field_toCompact (ht.fields f hf)

end TenantTables
