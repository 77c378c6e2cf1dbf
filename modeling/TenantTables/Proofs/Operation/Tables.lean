import TenantTables.Proofs.Schema.Update
import TenantTables.Proofs.Storage.Runs

namespace TenantTables

theorem Program.run_tryCatch_ok {source : Source} {w w' : World} {p : Program α}
    {f : Failure → Program α} {a : α} :
    (tryCatch p f).run source w = (.ok a, w') ↔
      p.run source w = (.ok a, w') ∨
        ∃ e v, p.run source w = (.error e, v) ∧ (f e).run source v = (.ok a, w') := by
  show (p.handle f).run source w = _ ↔ _
  induction p generalizing w with
  | done r =>
    cases r with
    | ok b => simp [handle, run]
    | error e =>
      constructor
      . intro h
        exact .inr ⟨e, w, rfl, h⟩
      . rintro (h | ⟨e', v, heq, h⟩)
        . simp [run] at h
        . cases heq
          exact h
  | call c next ih => exact ih _

theorem Table.mem_fieldNames {t : Table} {name : String} :
    name ∈ t.fieldNames ↔ (t.fieldByName? name).isSome = true := by
  simp [fieldNames, fieldByName?]

namespace Tables

open Program

variable {source : Source} {w w' : World}

theorem revise_ok {t t' : Table} {displayName description : Value} {now : Moment}
    (h : (revise t displayName description now).toRequest = .ok t') :
    now.isAware = true ∧ ∃ displayName description,
      t' = { t with displayName, description, version := t.version + 1, updatedAt := now } := by
  simp only [revise, Document.Reading.toRequest_eq_ok, Document.Reading.seq_eq_value,
    Document.Reading.map_eq_value, Document.required_eq_value] at h
  obtain ⟨_, updatedAt, ⟨_, newDescription, ⟨newName, -, rfl⟩, -, rfl⟩, ⟨v, hv, htime⟩, rfl⟩ := h
  obtain rfl : Value.moment now = v := by simpa [Entries.get?] using hv
  obtain ⟨haware, rfl⟩ := Document.Reader.moment_eq_value.mp htime
  exact ⟨haware, newName, newDescription, rfl⟩

structure Edited (source : Source) (w w' : World) (tableId : String) (old edit t : Table) : Prop where
  ready : w.store.isReady = true
  found : w.store.table? tableId = some old
  aware : (source.clock w.readings).isAware = true
  shape : ∃ displayName description, t =
    { old with
      displayName, description, fields := edit.fields, relations := edit.relations
      version := old.version + 1, updatedAt := source.clock w.readings }
  saved : ∃ s, w.store.saveTable t = .ok s ∧ w'.store = s
  readings : w'.readings = w.readings + 1

theorem Edited.id {tableId : String} {old edit t : Table}
    (h : Edited source w w' tableId old edit t) : t.id = tableId := by
  obtain ⟨_, _, hshape⟩ := h.shape
  rw [hshape]
  show old.id = tableId
  exact Store.table?_id h.found

theorem Edited.store {tableId : String} {old edit t : Table}
    (h : Edited source w w' tableId old edit t) :
    ∃ new, old.overwrite t = .ok new ∧ new.id = tableId ∧ w'.store = w.store.putTable new := by
  obtain ⟨s, hsave, hstore⟩ := h.saved
  obtain ⟨-, new, hnew, rfl⟩ := Store.saveTable_ok (h.id ▸ h.found) hsave
  obtain ⟨_, -, hshape⟩ := Table.overwrite_ok hnew
  refine ⟨new, hnew, ?_, hstore⟩
  rw [hshape]
  show old.id = tableId
  exact Store.table?_id h.found

theorem write_ok {old edit t : Table} {displayName description : Value}
    (hready : w.store.isReady = true) {tableId : String} (hfound : w.store.table? tableId = some old)
    (hedit : edit = { old with fields := edit.fields, relations := edit.relations })
    (h : (write edit displayName description).run source w = (.ok t, w')) :
    Edited source w w' tableId old edit t ∧ w'.identifiers = w.identifiers := by
  unfold write at h
  rw [run_clock_bind_ok] at h
  obtain ⟨t', hrevise, h⟩ := run_lift_bind_ok.mp h
  obtain ⟨_, v, hsave, h⟩ := run_bind_ok.mp h
  obtain ⟨s, hsaved, rfl⟩ := run_saveTable_ok.mp hsave
  obtain ⟨rfl, rfl⟩ := run_pure_ok.mp h
  obtain ⟨haware, displayName, description, hshape⟩ := revise_ok hrevise
  rw [hedit] at hshape
  exact ⟨⟨hready, hfound, haware, ⟨displayName, description, hshape⟩, ⟨s, hsaved, rfl⟩, rfl⟩, rfl⟩

theorem update_ok {tableId : String} {displayName description : Value} {t : Table}
    (h : (update tableId displayName description).run source w = (.ok t, w')) :
    (w.store.isReady = true ∧ w.store.table? tableId = some t ∧ w' = w ∧
      displayName.isNull = true ∧ description.isNull = true) ∨
    ∃ old, Edited source w w' tableId old old t ∧ w'.identifiers = w.identifiers ∧
      ¬(displayName.isNull = true ∧ description.isNull = true) := by
  rw [update, run_locked] at h
  obtain ⟨old, v, hload, h⟩ := run_bind_ok.mp h
  obtain ⟨hready, hfound, rfl⟩ := requireTable_ok hload
  split at h
  . next hnull =>
    obtain ⟨rfl, rfl⟩ := run_pure_ok.mp h
    exact .inl ⟨hready, hfound, rfl, by simpa using hnull⟩
  . next hnull =>
    obtain ⟨hedited, hnext⟩ := write_ok hready hfound rfl h
    exact .inr ⟨old, hedited, hnext, by simpa using hnull⟩

theorem checkName_ok {kind name : String} {v : Value} (h : checkName kind v = .ok name) :
    v = .text name ∧ Text.isSnakeCase name = true := by
  unfold checkName at h
  split at h
  . split at h
    . next hsnake =>
      obtain rfl := Except.ok.inj h
      exact ⟨rfl, hsnake⟩
    . simp [reject] at h
  . simp [reject] at h

open Document Document.Reader in
theorem define_ok {spec : FieldSpec} {id : String} {f : Field}
    (h : define spec id = .value f) :
    f = spec.toField id ∧ Text.isSnakeCase spec.name = true ∧
      Document.Reader.formulaRule spec.type spec.formula = .ok () := by
  obtain ⟨spec', hparts, h⟩ := Reading.andThen_eq_value.mp h
  obtain ⟨_, hrule, rfl⟩ := Reading.map_eq_value.mp h
  obtain ⟨hname, hdisplay, htype, hrequired, hunique, hdefault, hvalidation, hformula⟩ :=
    fieldParts_eq_value hparts
  have hname := Ruling.snakeCase_ok (textWith_eq_value (required_of_get? (v := .text spec.name) rfl hname))
  have hdisplay :=
    Ruling.nonBlank_ok (textWith_eq_value (required_of_get? (v := .text spec.displayName) rfl hdisplay))
  have htype := required_of_get? (v := .text spec.type.name) rfl htype
  have hrequired := optional_of_get? (v := .bool spec.required) rfl hrequired
  have hunique := optional_of_get? (v := .ofOption .bool spec.unique) rfl hunique
  have hdefault := optional_of_get? (v := spec.defaultValue) rfl hdefault
  have hvalidation := optional_of_get? (v := .ofOption (·.toDocument) spec.validation) rfl hvalidation
  have hformula := optional_of_get? (v := .ofOption .text spec.formula) rfl hformula
  have htype : spec'.type = spec.type := fieldType_text htype
  have hrequired : spec'.required = spec.required := (Reading.value.inj hrequired).symm
  have hunique : spec'.unique = spec.unique := by
    apply nullable_ofOption (fun _ => rfl) _ hunique
    intro b b' hb
    exact (Reading.value.inj hb).symm
  have hdefault : spec'.defaultValue = spec.defaultValue := (Reading.value.inj hdefault).symm
  have hvalidation : spec'.validation = spec.validation := by
    apply nullable_ofOption (fun _ => rfl) _ hvalidation
    exact fun _ _ => constraints_toDocument
  have hformula : spec'.formula = spec.formula := by
    apply nullable_ofOption (fun _ => rfl) _ hformula
    intro s s' hs
    exact (Reading.value.inj hs).symm
  have hsame : spec' = spec := by
    cases spec'
    cases spec
    simp_all
  rw [hsame] at hrule ⊢
  exact ⟨rfl, hname.1, Reading.require_eq_value.mp hrule⟩

theorem addField_ok {tableId : String} {request : Request FieldSpec} {t : Table}
    (h : (addField tableId request).run source w = (.ok t, w')) :
    ∃ old spec name, requestedName request = .ok (.text name) ∧ old.fieldByName? name = none ∧
      request.read Document.Reader.fieldSpec = .ok spec ∧
      Edited source w w' tableId old
        { old with fields := old.fields ++ [spec.toField (source.identifiers w.identifiers)] } t ∧
      w'.identifiers = w.identifiers + 1 ∧
      Document.Reader.formulaRule spec.type spec.formula = .ok () := by
  unfold addField at h
  obtain ⟨requested, hrequested, h⟩ := run_lift_bind_ok.mp h
  rw [run_locked] at h
  obtain ⟨old, v, hload, h⟩ := run_bind_ok.mp h
  obtain ⟨hready, hfound, rfl⟩ := requireTable_ok hload
  obtain ⟨name, hname, h⟩ := run_lift_bind_ok.mp h
  obtain ⟨hfree, h⟩ := run_ite_reject_ok.mp h
  obtain ⟨spec, hspec, h⟩ := run_lift_bind_ok.mp h
  rw [run_identifier_bind_ok] at h
  obtain ⟨field, hfield, h⟩ := run_lift_bind_ok.mp h
  rw [Document.Reading.toRequest_eq_ok] at hfield
  obtain ⟨rfl, -, hrule⟩ := define_ok hfield
  rw [(checkName_ok hname).1] at hrequested
  obtain ⟨⟨hready, hfound, haware, hshape, hsaved, hreadings⟩, hnext⟩ :=
    write_ok (w := { w with identifiers := w.identifiers + 1 }) hready hfound rfl h
  refine ⟨old, spec, name, hrequested, by simpa using hfree, hspec, ?_, hnext, hrule⟩
  exact ⟨hready, hfound, haware, hshape, hsaved, hreadings⟩

theorem run_updateField_ok {tableId fieldId : String} {request : Request FieldUpdate} {t : Table} :
    (updateField tableId fieldId request).run source w = (.ok t, w') ↔
      w.store.isReady = true ∧ ∃ old existing u merged, w.store.table? tableId = some old ∧
        old.fieldById? fieldId = some existing ∧ request.read Document.Reader.fieldUpdate = .ok u ∧
        merge existing u = .value merged ∧
        (write { old with fields := old.fields.map fun f => if f.id == fieldId then merged else f } .null
          .null).run source w = (.ok t, w') := by
  unfold updateField
  rw [run_locked]
  constructor
  . intro h
    obtain ⟨old, v, hload, h⟩ := run_bind_ok.mp h
    obtain ⟨hready, hfound, rfl⟩ := requireTable_ok hload
    dsimp only at h
    cases hexisting : old.fieldById? fieldId with
    | none => simp [hexisting, run_bind] at h
    | some existing =>
      rw [hexisting] at h
      dsimp only at h
      rw [pure_bind] at h
      obtain ⟨u, hu, h⟩ := run_lift_bind_ok.mp h
      obtain ⟨merged, hmerged, h⟩ := run_lift_bind_ok.mp h
      rw [Document.Reading.toRequest_eq_ok] at hmerged
      exact ⟨hready, old, existing, u, merged, hfound, hexisting, hu, hmerged, h⟩
  . rintro ⟨hready, old, existing, u, merged, hfound, hexisting, hu, hmerged, h⟩
    refine run_bind_ok.mpr ⟨old, w, run_requireTable hready hfound, ?_⟩
    dsimp only
    rw [hexisting]
    dsimp only
    rw [pure_bind]
    rw [← Document.Reading.toRequest_eq_ok] at hmerged
    exact run_lift_bind_ok.mpr ⟨u, hu, run_lift_bind_ok.mpr ⟨merged, hmerged, h⟩⟩

theorem updateField_ok {tableId fieldId : String} {request : Request FieldUpdate} {t : Table}
    (h : (updateField tableId fieldId request).run source w = (.ok t, w')) :
    ∃ old existing u merged, old.fieldById? fieldId = some existing ∧
      request.read Document.Reader.fieldUpdate = .ok u ∧ merge existing u = .value merged ∧
      Edited source w w' tableId old
        { old with fields := old.fields.map fun f => if f.id == fieldId then merged else f } t ∧
      w'.identifiers = w.identifiers := by
  obtain ⟨hready, old, existing, u, merged, hfound, hexisting, hu, hmerged, h⟩ := run_updateField_ok.mp h
  exact ⟨old, existing, u, merged, hexisting, hu, hmerged, write_ok hready hfound rfl h⟩

theorem deleteField_ok {tableId fieldId : String} {t : Table}
    (h : (deleteField tableId fieldId).run source w = (.ok t, w')) :
    ∃ old, (old.fieldById? fieldId).isSome = true ∧
      Edited source w w' tableId old
        { old with fields := old.fields.filter (·.id != fieldId) } t ∧
      w'.identifiers = w.identifiers := by
  unfold deleteField at h
  rw [run_locked] at h
  obtain ⟨old, v, hload, h⟩ := run_bind_ok.mp h
  obtain ⟨hready, hfound, rfl⟩ := requireTable_ok hload
  obtain ⟨hexists, h⟩ := run_ite_throw_ok.mp h
  exact ⟨old, by simpa [Option.isSome_iff_ne_none] using hexists, write_ok hready hfound rfl h⟩

theorem requireTarget_ok {table target : Table} {id : String}
    (h : (requireTarget table id).run source w = (.ok target, w')) :
    (target = table ∨ w.store.table? id = some target) ∧ target.tenantId = table.tenantId ∧
      w = w' := by
  unfold requireTarget at h
  dsimp only at h
  split at h
  . obtain ⟨rfl, rfl⟩ := run_pure_ok.mp h
    exact ⟨.inl rfl, rfl, rfl⟩
  . obtain ⟨found, v, hasked, h⟩ := run_bind_ok.mp h
    obtain ⟨-, hfound, rfl⟩ := run_table_ok.mp hasked
    cases found with
    | none => simp at h
    | some other =>
      obtain ⟨htenant, h⟩ := run_ite_throw_ok.mp h
      obtain ⟨rfl, rfl⟩ := run_pure_ok.mp h
      exact ⟨.inr hfound, by simpa using htenant, rfl⟩

structure Relates (s : Store) (table target : Table) (r : Relation) : Prop where
  fromTable : r.fromTable = table.id
  toTable : s.table? r.toTable = some target
  tenantId : target.tenantId = table.tenantId
  fromField : r.fromField ∈ table.fieldNames
  toField : r.toField ∈ target.fieldNames

theorem createRelation_ok {tableId : String} {request : Request RelationSpec} {t : Table}
    (h : (createRelation tableId request).run source w = (.ok t, w')) :
    ∃ old target relation, Relates w.store old target relation ∧
      Edited source w w' tableId old { old with relations := old.relations ++ [relation] } t ∧
      w'.identifiers = w.identifiers + 1 := by
  unfold createRelation at h
  obtain ⟨spec, -, h⟩ := run_lift_bind_ok.mp h
  rw [run_locked] at h
  obtain ⟨old, v, hload, h⟩ := run_bind_ok.mp h
  obtain ⟨hready, hfound, rfl⟩ := requireTable_ok hload
  obtain ⟨target, v, htarget, h⟩ := run_bind_ok.mp h
  obtain ⟨hwhich, htenant, rfl⟩ := requireTarget_ok htarget
  obtain ⟨hfrom, h⟩ := run_ite_reject_ok.mp h
  obtain ⟨hto, h⟩ := run_ite_reject_ok.mp h
  rw [run_identifier_bind_ok] at h
  obtain ⟨⟨hready, hfound, haware, hshape, hsaved, hreadings⟩, hnext⟩ :=
    write_ok (w := { w with identifiers := w.identifiers + 1 }) hready hfound rfl h
  refine ⟨old, target, _, ⟨rfl, ?_, htenant, ?_, ?_⟩,
    ⟨hready, hfound, haware, hshape, hsaved, hreadings⟩, hnext⟩
  . rcases hwhich with rfl | hother
    . exact Store.table?_id hfound ▸ hfound
    . exact Store.table?_id hother ▸ hother
  . rw [Table.mem_fieldNames]
    simpa [Option.isSome_iff_ne_none] using hfrom
  . rw [Table.mem_fieldNames]
    simpa [Option.isSome_iff_ne_none] using hto

structure Created (source : Source) (w w' : World) (t : Table) : Prop where
  aware : (source.clock w.readings).isAware = true
  shape : ∃ tenantId name displayName description, t =
    { id := source.identifiers w.identifiers, tenantId, name, displayName, description
      createdAt := source.clock w.readings, updatedAt := source.clock w.readings }
  saved : ∃ s, w.store.insertTable t = .ok s ∧ w'.store = s
  readings : w'.readings = w.readings + 1
  identifiers : w'.identifiers = w.identifiers + 1

theorem Created.store {t : Table} (h : Created source w w' t) :
    w.store.table? t.id = none ∧
      ∃ new, t.stored = .ok new ∧ new.fields = [] ∧ w'.store = w.store.putTable new := by
  obtain ⟨s, hinsert, hstore⟩ := h.saved
  obtain ⟨-, hfree, -, new, hnew, rfl⟩ := Store.insertTable_ok hinsert
  obtain ⟨_, _, -, -, hnewshape⟩ := Table.stored_ok hnew
  obtain ⟨_, _, _, _, hshape⟩ := h.shape
  refine ⟨hfree, new, hnew, ?_, hstore⟩
  rw [hnewshape, hshape]
  rfl

theorem newTable_ok {id name : String} {r : TableRequest} {now : Moment} {t : Table}
    (h : (newTable id name r now).toRequest = .ok t) :
    now.isAware = true ∧ ∃ tenantId displayName description,
      t = { id, tenantId, name, displayName, description, createdAt := now, updatedAt := now } := by
  simp only [newTable, Document.Reading.toRequest_eq_ok, Document.Reading.seq_eq_value,
    Document.Reading.map_eq_value] at h
  obtain ⟨_, updatedAt, ⟨_, createdAt, ⟨_, description, ⟨_, displayName, ⟨tenantId, -, rfl⟩, -, rfl⟩,
    -, rfl⟩, hcreated, rfl⟩, hupdated, rfl⟩ := h
  obtain ⟨v, hv, hcreated⟩ := Document.required_eq_value.mp hcreated
  obtain rfl : Value.moment now = v := by simpa [Entries.get?] using hv
  obtain ⟨v, hv, hupdated⟩ := Document.required_eq_value.mp hupdated
  obtain rfl : Value.moment now = v := by simpa [Entries.get?] using hv
  obtain ⟨haware, rfl⟩ := Document.Reader.moment_eq_value.mp hcreated
  obtain ⟨-, rfl⟩ := Document.Reader.moment_eq_value.mp hupdated
  exact ⟨haware, tenantId, displayName, description, rfl⟩

theorem add_ok {r : TableRequest} {name : String} {t : Table}
    (h : (add r name).run source w = (.ok t, w')) : Created source w w' t := by
  unfold add at h
  rw [run_clock_bind_ok, run_identifier_bind_ok] at h
  obtain ⟨t', hnew, h⟩ := run_lift_bind_ok.mp h
  obtain ⟨_, v, hinsert, h⟩ := run_bind_ok.mp h
  obtain ⟨rfl, rfl⟩ := run_pure_ok.mp h
  obtain ⟨haware, tenantId, displayName, description, hshape⟩ := newTable_ok hnew
  rcases run_tryCatch_ok.mp hinsert with hinsert | ⟨e, v, -, hcaught⟩
  . obtain ⟨s, hsaved, rfl⟩ := run_insertTable_ok.mp hinsert
    exact ⟨haware, ⟨tenantId, name, displayName, description, hshape⟩, ⟨s, hsaved, rfl⟩, rfl, rfl⟩
  . -- neither of the two ways to go on from a failure returns
    split at hcaught <;> simp [reject] at hcaught

theorem create_ok {r : TableRequest} {lookUp : Bool} {t : Table}
    (h : (create r lookUp).run source w = (.ok t, w')) : Created source w w' t := by
  unfold create at h
  obtain ⟨name, -, h⟩ := run_lift_bind_ok.mp h
  dsimp only at h
  split at h
  . obtain ⟨taken, v, htaken, h⟩ := run_bind_ok.mp h
    obtain ⟨-, h⟩ := run_ite_reject_ok.mp h
    have hsame : w = v := by
      unfold isTaken at htaken
      split at htaken
      . obtain ⟨found, u, hasked, htaken⟩ := run_bind_ok.mp htaken
        obtain ⟨-, rfl⟩ := run_pure_ok.mp htaken
        rw [run_ask] at hasked
        exact congrArg Prod.snd hasked
      . obtain ⟨-, rfl⟩ := run_pure_ok.mp htaken
        rfl
    rw [hsame]
    exact add_ok h
  . exact add_ok h

theorem writesLast_write (t : Table) (displayName description : Value) :
    (write t displayName description).WritesLast := by
  apply writesLast_bind (uses_ask rfl)
  intro now
  apply writesLast_bind (reads_lift _)
  intro t'
  exact writesLast_ask rfl t'

theorem writesLast_ite_reject {c : Prop} [Decidable c] {rule : Rule} {field : String} {value : Value}
    {f : β → Program α} {p : Program α} (h : p.WritesLast) :
    (if c then (liftM (reject rule field value : Outcome β) : Program β) >>= f else p).WritesLast := by
  split
  . exact .done _
  . exact h

theorem isGuarded_update (tableId : String) (displayName description : Value) :
    (update tableId displayName description).IsGuarded tableId := by
  apply isGuarded_locked
  apply writesLast_bind (reads_requireTable _)
  intro table
  split
  . exact .done _
  . exact writesLast_write _ _ _

theorem isGuarded_addField (tableId : String) (request : Request FieldSpec) :
    (addField tableId request).IsGuarded tableId := by
  apply isGuarded_lift_bind
  intro requested
  apply isGuarded_locked
  apply writesLast_bind (reads_requireTable _)
  intro table
  apply writesLast_bind (reads_lift _)
  intro name
  apply writesLast_ite_reject
  apply writesLast_bind (reads_lift _)
  intro spec
  apply writesLast_bind (uses_ask rfl)
  intro id
  apply writesLast_bind (reads_lift _)
  intro field
  exact writesLast_write _ _ _

theorem isGuarded_updateField (tableId fieldId : String) (request : Request FieldUpdate) :
    (updateField tableId fieldId request).IsGuarded tableId := by
  apply isGuarded_locked
  apply writesLast_bind (reads_requireTable _)
  intro table
  dsimp only
  split
  . apply writesLast_bind (reads_pure _)
    intro existing
    apply writesLast_bind (reads_lift _)
    intro u
    apply writesLast_bind (reads_lift _)
    intro merged
    exact writesLast_write _ _ _
  . exact .done _

theorem isGuarded_deleteField (tableId fieldId : String) :
    (deleteField tableId fieldId).IsGuarded tableId := by
  apply isGuarded_locked
  apply writesLast_bind (reads_requireTable _)
  intro table
  dsimp only
  split
  . exact .done _
  . exact writesLast_write _ _ _

theorem searches_requireTarget (table : Table) (id : String) :
    (requireTarget table id).Uses Call.isSearch := by
  unfold requireTarget
  dsimp only
  split
  . trivial
  . apply uses_bind (uses_ask rfl)
    intro found
    cases found with
    | none => trivial
    | some target =>
      dsimp only
      split <;> trivial

theorem isGuarded_createRelation (tableId : String) (request : Request RelationSpec) :
    (createRelation tableId request).IsGuarded tableId := by
  apply isGuarded_lift_bind
  intro spec
  apply isGuarded_locked
  apply writesLast_bind (reads_requireTable _)
  intro table
  apply writesLast_bind (reads_of_searches (searches_requireTarget _ _))
  intro target
  apply writesLast_ite_reject
  apply writesLast_ite_reject
  apply writesLast_bind (uses_ask rfl)
  intro id
  exact writesLast_write _ _ _

theorem searches_isTaken (r : TableRequest) (name : String) : (isTaken r name).Uses Call.isSearch := by
  unfold isTaken
  split
  . exact uses_bind (uses_ask rfl) fun _ => uses_pure _
  . trivial

theorem writesLast_add (r : TableRequest) (name : String) : (add r name).WritesLast := by
  apply writesLast_bind (uses_ask rfl)
  intro now
  apply writesLast_bind (uses_ask rfl)
  intro id
  apply writesLast_bind (reads_lift _)
  intro table
  apply WritesLast.write rfl
  . intro e
    by_cases h : e = .storage .integrity
    . exact ⟨_, by rw [h]; rfl⟩
    . refine ⟨e, ?_⟩
      cases e with
      | storage f => cases f <;> first | rfl | exact absurd rfl h
      | _ => rfl
  . exact fun _ => ⟨table, rfl⟩

theorem writesLast_create (r : TableRequest) (lookUp : Bool) : (create r lookUp).WritesLast := by
  apply writesLast_bind (reads_lift _)
  intro name
  dsimp only
  split
  . apply writesLast_bind (reads_of_searches (searches_isTaken _ _))
    intro taken
    apply writesLast_ite_reject
    exact writesLast_add r name
  . exact writesLast_add r name

end Tables
end TenantTables
