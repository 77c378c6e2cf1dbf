import TenantTables.Proofs.Operation.Orderly

namespace TenantTables

open Program

namespace World

def succeeded (source : Source) (w : World) : List Operation → List Operation
  | [] => []
  | op :: ops =>
    match op.program.run source w with
    | (.ok _, w') => op :: succeeded source w' ops
    | (.error _, w') => succeeded source w' ops

theorem succeeded_cons (source : Source) (w : World) (op : Operation) (ops : List Operation) :
    w.succeeded source (op :: ops) =
      w.succeeded source [op] ++ (op.program.run source w).2.succeeded source ops := by
  rw [succeeded, succeeded]
  rcases op.program.run source w with ⟨_ | _, _⟩ <;> rfl

end World

def Store.versionOf (s : Store) (tableId : String) : Int :=
  ((s.table? tableId).map (·.version)).getD 0

namespace World

variable {source : Source} {w w' : World}

theorem versionOf_of_created {t : Table} (h : Tables.Created source w w' t) (tableId : String) :
    w'.store.versionOf tableId = w.store.versionOf tableId := by
  obtain ⟨hfree, new, hnew, -, hstore⟩ := h.store
  obtain ⟨_, _, _, _, hshape⟩ := h.shape
  obtain ⟨_, _, -, -, hnewshape⟩ := Table.stored_ok hnew
  have hid : new.id = t.id := by rw [hnewshape]
  have hversion : new.version = 0 := by
    rw [hnewshape, hshape]
  rw [Store.versionOf, Store.versionOf, hstore, Store.table?_putTable]
  split
  . next heq =>
    rw [heq, hid, hfree]
    exact hversion
  . rfl

theorem versionOf_of_revised {job : Work} {old new : Table}
    (hold : w.store.table? old.id = some old) (h : Work.Revises source w w' job old new)
    (tableId : String) :
    w'.store.versionOf tableId = w.store.versionOf tableId + if tableId = old.id then 1 else 0 := by
  rw [Store.versionOf, Store.versionOf, h.store, Store.table?_putTable, h.id]
  split
  . next heq =>
    rw [heq, hold]
    exact h.version
  . simp

theorem versionOf_run (source : Source) (w : World) (op : Operation) (tableId : String) :
    (op.program.run source w).2.store.versionOf tableId =
      w.store.versionOf tableId + (w.succeeded source [op]).countP (·.revises tableId) := by
  have hredefines := op.redefines_of_run source w
  unfold succeeded
  rcases hrun : op.program.run source w with ⟨e | answer, w'⟩
  . rw [hrun] at hredefines
    cases hredefines with
    | none htables _ _ _ =>
      dsimp only at htables
      simp [Store.versionOf, Store.table?, htables, succeeded]
  . rw [hrun] at hredefines
    cases hredefines with
    | none htables _ _ hfails =>
      have hedits : op.revises tableId = false := by
        by_contra hedits
        obtain ⟨e, he⟩ := hfails tableId (by simpa using hedits)
        simp at he
      dsimp only at htables
      simp [Store.versionOf, Store.table?, htables, succeeded, hedits]
    | created hcreated =>
      rw [versionOf_of_created hcreated]
      simp [succeeded, Operation.revises]
    | @revised id job _ old new hold hrevised =>
      obtain rfl := Store.table?_id hold
      rw [versionOf_of_revised hold hrevised]
      by_cases heq : tableId = old.id
      . simp [succeeded, Operation.revises, heq, hrevised.revises]
      . simp [succeeded, Operation.revises, heq, Ne.symm heq]

theorem versionOf_after (source : Source) (w : World) (ops : List Operation) (tableId : String) :
    (w.after source ops).store.versionOf tableId =
      w.store.versionOf tableId + (w.succeeded source ops).countP (·.revises tableId) := by
  induction ops generalizing w with
  | nil => simp [after, succeeded]
  | cons op ops ih =>
    have hrest := ih (op.program.run source w).2
    rw [succeeded_cons, List.countP_append, Int.natCast_add, ← Int.add_assoc, ← versionOf_run]
    exact hrest

end World

/--
The table `u` is the table `t` later on, with `ops` having succeeded in between: it is identified as it
was, and so is each of its fields until one of them removes it.
-/
structure Table.Persists (t u : Table) (ops : List Operation) : Prop where
  id : u.id = t.id
  tenantId : u.tenantId = t.tenantId
  name : u.name = t.name
  createdAt : u.createdAt = t.createdAt
  fields : ∀ f ∈ t.fields,
    (∃ g ∈ u.fields, g.id = f.id ∧ g.name = f.name) ∨ .work t.id (.deleteField f.id) ∈ ops
  names : ∀ f ∈ t.fields, ∀ g ∈ u.fields, g.id = f.id → g.name = f.name

namespace World

structure Leads (source : Source) (w : World) (t u : Table) (ops : List Operation) : Prop where
  id : u.id = t.id
  tenantId : u.tenantId = t.tenantId
  name : u.name = t.name
  createdAt : u.createdAt = t.createdAt
  keeps : ∀ label ∈ t.labels, label ∈ u.labels ∨ .work t.id (.deleteField label.1) ∈ ops
  gains : ∀ label ∈ u.labels,
    label ∈ t.labels ∨ ∃ n, w.identifiers ≤ n ∧ label.1 = source.identifiers n

variable {source : Source} {w w' : World}

theorem leads_refl (source : Source) (w : World) (t : Table) (ops : List Operation) :
    Leads source w t t ops :=
  ⟨rfl, rfl, rfl, rfl, fun _ => .inl, fun _ => .inl⟩

theorem leads_trans {t u v : Table} {ops ops' : List Operation} (h : Leads source w t u ops)
    (h' : Leads source w' u v ops') (hle : w.identifiers ≤ w'.identifiers) :
    Leads source w t v (ops ++ ops') := by
  refine ⟨h'.id.trans h.id, h'.tenantId.trans h.tenantId, h'.name.trans h.name,
    h'.createdAt.trans h.createdAt, ?_, ?_⟩
  . intro label hlabel
    rcases h.keeps label hlabel with hlabel | hremoved
    . rcases h'.keeps label hlabel with hlabel | hremoved
      . exact .inl hlabel
      . rw [h.id] at hremoved
        exact .inr (List.mem_append_right _ hremoved)
    . exact .inr (List.mem_append_left _ hremoved)
  . intro label hlabel
    rcases h'.gains label hlabel with hlabel | ⟨n, hn, hid⟩
    . exact h.gains label hlabel
    . exact .inr ⟨n, Nat.le_trans hle hn, hid⟩

theorem leads_of_revised (h : w.IsOrderly source) {job : Work} {old new : Table}
    (hold : old ∈ w.store.tables) (hrevised : Work.Revises source w w' job old new) :
    Leads source w old new [.work old.id job] := by
  have hrelabels := hrevised.labels (h.tables old hold)
  refine ⟨hrevised.id, hrevised.tenantId, hrevised.name, hrevised.createdAt, ?_, ?_⟩
  . intro label hlabel
    rcases Work.relabels_keeps hrelabels hlabel with hlabel | rfl
    . exact .inl hlabel
    . exact .inr (List.mem_singleton_self _)
  . intro label hlabel
    rcases Work.mem_of_relabels hrelabels hlabel with hlabel | ⟨-, hid⟩
    . exact .inl hlabel
    . exact .inr ⟨w.identifiers, Nat.le_refl _, hid⟩

theorem leads_run (h : w.IsOrderly source) (op : Operation) {t : Table} (ht : t ∈ w.store.tables) :
    ∃ u ∈ (op.program.run source w).2.store.tables,
      Leads source w t u (w.succeeded source [op]) := by
  have hredefines := op.redefines_of_run source w
  unfold succeeded
  rcases hrun : op.program.run source w with ⟨e | answer, w'⟩
  . rw [hrun] at hredefines
    cases hredefines with
    | none htables _ _ _ =>
      dsimp only at htables ⊢
      rw [htables]
      exact ⟨t, ht, leads_refl source w t _⟩
  . rw [hrun] at hredefines
    cases hredefines with
    | none htables _ _ _ =>
      dsimp only at htables ⊢
      rw [htables]
      exact ⟨t, ht, leads_refl source w t _⟩
    | created hcreated =>
      obtain ⟨hfree, new, hnew, -, hstore⟩ := hcreated.store
      refine ⟨t, ?_, leads_refl source w t _⟩
      rw [hstore, Store.mem_putTable]
      right
      refine ⟨ht, ?_⟩
      intro hid
      obtain ⟨_, _, -, -, hshape⟩ := Table.stored_ok hnew
      rw [hshape] at hid
      rw [← hid, table?_of_mem h ht] at hfree
      simp at hfree
    | @revised tableId job _ old new hold hrevised =>
      obtain rfl := Store.table?_id hold
      have holdmem := Store.table?_mem hold
      by_cases hid : t.id = old.id
      . obtain rfl := List.inj_on_of_nodup_map h.ids ht holdmem hid
        refine ⟨new, ?_, leads_of_revised h ht hrevised⟩
        rw [hrevised.store, Store.mem_putTable]
        exact .inl rfl
      . refine ⟨t, ?_, leads_refl source w t _⟩
        rw [hrevised.store, Store.mem_putTable]
        exact .inr ⟨ht, by rwa [hrevised.id]⟩

theorem leads_after (hids : Function.Injective source.identifiers) (h : w.IsOrderly source)
    (ops : List Operation) {t : Table} (ht : t ∈ w.store.tables) :
    ∃ u ∈ (w.after source ops).store.tables, Leads source w t u (w.succeeded source ops) := by
  induction ops generalizing w t with
  | nil => exact ⟨t, ht, leads_refl source w t _⟩
  | cons op ops ih =>
    obtain ⟨u, hu, hleads⟩ := leads_run h op ht
    obtain ⟨v, hv, hleads'⟩ := ih (isOrderly_run hids h op) hu
    refine ⟨v, hv, ?_⟩
    rw [succeeded_cons]
    exact leads_trans hleads hleads' (identifiers_le_run source w op.program)

theorem persists_of_leads (hids : Function.Injective source.identifiers) (h : w.IsOrderly source)
    {t u : Table} (ht : t ∈ w.store.tables) {ops : List Operation} (hleads : Leads source w t u ops) :
    t.Persists u ops := by
  refine ⟨hleads.id, hleads.tenantId, hleads.name, hleads.createdAt, ?_, ?_⟩
  . intro f hf
    rcases hleads.keeps (f.id, f.name) (Table.mem_labels.mpr ⟨f, hf, rfl, rfl⟩) with hlabel | hremoved
    . exact .inl (Table.mem_labels.mp hlabel)
    . exact .inr hremoved
  . intro f hf g hg hid
    rcases hleads.gains (g.id, g.name) (Table.mem_labels.mpr ⟨g, hg, rfl, rfl⟩) with
      hlabel | ⟨n, hn, hissued⟩
    . obtain ⟨f', hf', hid', hname⟩ := Table.mem_labels.mp hlabel
      rw [← Table.eq_of_id_eq (h.tables t ht) hf' hf (hid'.trans hid)]
      exact hname.symm
    . -- a field under an identifier of its own time has none that was handed out before
      obtain ⟨m, hm, hold⟩ := h.issued t ht (f.id, f.name) (Table.mem_labels.mpr ⟨f, hf, rfl, rfl⟩)
      have := hids (hold.symm.trans (hid.symm.trans hissued))
      omega

end World

structure TableRequest.IsValid (r : TableRequest) (tenantId name : String) : Prop where
  tenantId : r.tenantId = .text tenantId ∧ Text.isBlank tenantId = false
  name : r.name = .text name ∧ Text.isSnakeCase name = true
  displayName : ∃ s, r.displayName = .text s ∧ Text.isBlank s = false
  description : r.description = .null ∨ ∃ s, r.description = .text s

theorem Program.run_tryCatch (source : Source) (w : World) (p : Program α) (f : Failure → Program α) :
    (tryCatch p f).run source w =
      match p.run source w with
      | (.ok a, w') => (.ok a, w')
      | (.error e, w') => (f e).run source w' := by
  show (p.handle f).run source w = _
  induction p generalizing w with
  | done r => cases r <;> rfl
  | call c next ih => exact ih _ _

theorem Store.insertTable_of_taken {s : Store} {t : Table} (hready : s.isReady = true)
    (htaken : (s.tableNamed? t.tenantId t.name).isSome = true) (hversion : fitsWord t.version = true)
    {now : Moment} (hcreated : t.createdAt = now) (hupdated : t.updatedAt = now)
    (hstorable : now.toUtc?.isSome = true) : s.insertTable t = .error (.storage .integrity) := by
  obtain ⟨m, hm⟩ := Option.isSome_iff_exists.mp hstorable
  have hstored : now.stored = .ok m := by
    rw [Moment.stored, hm]
  unfold insertTable Table.stored
  rw [hcreated, hupdated, hstored]
  simp [Bind.bind, Except.bind, pure, Except.pure, requireReady, hready, hversion, htaken, throw,
    throwThe, MonadExceptOf.throw]

namespace Tables

variable {source : Source} {w : World}

theorem newTable_of_isValid {r : TableRequest} {tenantId name : String} (h : r.IsValid tenantId name)
    (id : String) {now : Moment} (hnow : now.isAware = true) :
    ∃ displayName description, (newTable id name r now).toRequest =
      .ok { id, tenantId, name, displayName, description, createdAt := now, updatedAt := now } := by
  obtain ⟨displayName, hdisplayName, hnonblank⟩ := h.displayName
  have htext {label s : String} (hs : Text.isBlank s = false) :
      Document.Reader.textWith (Document.Ruling.nonBlank label) (.text s) = .value s := by
    simp [Document.Reader.textWith, Document.Reader.text, Document.Reading.andThen,
      Document.Ruling.nonBlank, hs, Document.Reading.require]
  have hmoment (label : String) : Document.Reader.moment label (.moment now) = .value now :=
    Document.Reader.moment_eq_value.mpr ⟨hnow, rfl⟩
  obtain ⟨description, hdescription⟩ : ∃ description,
      Document.Reader.nullable Document.Reader.text r.description = .value description := by
    rcases h.description with hnull | ⟨s, hs⟩
    . exact ⟨none, by rw [hnull]; rfl⟩
    . exact ⟨some s, by rw [hs]; rfl⟩
  refine ⟨displayName, description, ?_⟩
  rw [Document.Reading.toRequest_eq_ok]
  simp only [newTable, Document.Reading.seq_eq_value, Document.Reading.map_eq_value,
    Document.required_eq_value]
  refine ⟨_, now, ⟨_, now, ⟨_, description, ⟨_, displayName, ⟨tenantId, ⟨_, rfl, ?_⟩, rfl⟩,
    ⟨_, rfl, ?_⟩, rfl⟩, ⟨_, rfl, hdescription⟩, rfl⟩, ⟨_, rfl, hmoment _⟩, rfl⟩, ⟨_, rfl, hmoment _⟩, rfl⟩
  . rw [h.tenantId.1]
    exact htext h.tenantId.2
  . rw [hdisplayName]
    exact htext hnonblank

theorem isTaken_of_taken {r : TableRequest} {tenantId name : String} (h : r.tenantId = .text tenantId)
    (hready : w.store.isReady = true) (htaken : (w.store.tableNamed? tenantId name).isSome = true) :
    (isTaken r name).run source w = (.ok true, w) := by
  have hnamed : (ask (.tableNamed tenantId name)).run source w =
      (.ok (w.store.tableNamed? tenantId name), w) := by
    rw [run_ask, World.answer, World.answer.read, Store.requireReady, if_pos hready]
    rfl
  unfold isTaken
  rw [h]
  dsimp only
  rw [run_bind, hnamed]
  dsimp only
  rw [run_pure, htaken]

theorem add_of_taken {r : TableRequest} {tenantId name : String} (h : r.IsValid tenantId name)
    (hready : w.store.isReady = true) (htaken : (w.store.tableNamed? tenantId name).isSome = true)
    (haware : (source.clock w.readings).isAware = true)
    (hstorable : (source.clock w.readings).toUtc?.isSome = true) :
    ((add r name).run source w).1 =
      .error (.violation { rule := .nameFree "Table", field := some "name", value := .text name }) := by
  obtain ⟨displayName, description, hnew⟩ :=
    newTable_of_isValid h (source.identifiers w.identifiers) haware
  have hinsert (t : Table) (htenant : t.tenantId = tenantId) (hname : t.name = name)
      (hversion : t.version = 0) (hcreated : t.createdAt = source.clock w.readings)
      (hupdated : t.updatedAt = source.clock w.readings) (v : World) (hv : v.store = w.store) :
      (ask (.insertTable t)).run source v = (.error (.storage .integrity), v) := by
    have hfails : v.store.insertTable t = .error (.storage .integrity) := by
      rw [hv]
      apply Store.insertTable_of_taken hready _ _ hcreated hupdated hstorable
      . rw [htenant, hname]
        exact htaken
      . rw [hversion]
        rfl
    simp [World.answer, World.answer.write, hfails]
  unfold add
  rw [run_bind, run_ask, World.answer]
  dsimp only
  rw [run_bind, run_ask, World.answer]
  dsimp only
  rw [hnew, run_bind, run_lift]
  dsimp only
  rw [run_bind, run_tryCatch, hinsert _ rfl rfl rfl rfl rfl
    { w with identifiers := w.identifiers + 1, readings := w.readings + 1 } rfl]
  rfl

theorem create_of_taken {r : TableRequest} {tenantId name : String} (h : r.IsValid tenantId name)
    (hready : w.store.isReady = true) (htaken : (w.store.tableNamed? tenantId name).isSome = true)
    (haware : (source.clock w.readings).isAware = true)
    (hstorable : (source.clock w.readings).toUtc?.isSome = true) (lookUp : Bool) :
    ((create r lookUp).run source w).1 =
      .error (.violation { rule := .nameFree "Table", field := some "name", value := .text name }) := by
  have hname : checkName "Table" r.name = .ok name := by
    rw [h.name.1, checkName, if_pos h.name.2]
  unfold create
  rw [hname, run_bind, run_lift]
  dsimp only
  cases lookUp with
  | true =>
    rw [if_pos rfl, run_bind, isTaken_of_taken h.tenantId.1 hready htaken]
    rfl
  | false =>
    rw [if_neg (by simp)]
    exact add_of_taken h hready htaken haware hstorable

end Tables

namespace World

/--
The schema after a history that starts without tables: names of a tenant and the fields of a table stay
apart, computed fields have their formulas, and the version of a table counts its successful edits. Every
table is there after any later history, identified as it was, with each of its fields that was not
removed. And a name that is taken is refused alike, whoever finds out.
-/
theorem schema_after (source : Source) (hids : Function.Injective source.identifiers) (w : World)
    (hempty : w.store.tables = []) (ops later : List Operation) :
    let v := w.after source ops
    (v.store.tables.map (·.id)).Nodup ∧
    (v.store.tables.map fun t => (t.tenantId, t.name)).Nodup ∧
    (∀ t ∈ v.store.tables, t.IsWellFormed ∧
      t.version = (w.succeeded source ops).countP (·.revises t.id)) ∧
    (∀ t ∈ v.store.tables, ∃ u ∈ (w.after source (ops ++ later)).store.tables,
      t.Persists u (v.succeeded source later)) ∧
    (∀ t ∈ v.store.tables, ∀ r : TableRequest, r.IsValid t.tenantId t.name →
      (source.clock v.readings).isAware = true → (source.clock v.readings).toUtc?.isSome = true →
      ∀ lookUp, ((Tables.create r lookUp).run source v).1 = .error (.violation
        { rule := .nameFree "Table", field := some "name", value := .text t.name })) := by
  intro v
  have horderly : v.IsOrderly source := isOrderly_after hids (isOrderly_of_nil hempty) ops
  refine ⟨horderly.ids, horderly.names, ?_, ?_, ?_⟩
  . intro t ht
    have hversion := versionOf_after source w ops t.id
    have hnone : w.store.table? t.id = none := by
      rw [Store.table?, hempty]
      rfl
    rw [Store.versionOf, Store.versionOf, table?_of_mem horderly ht, hnone] at hversion
    refine ⟨horderly.tables t ht, ?_⟩
    simpa using hversion
  . intro t ht
    obtain ⟨u, hu, hleads⟩ := leads_after hids horderly later ht
    have hafter : w.after source (ops ++ later) = v.after source later := List.foldl_append
    rw [hafter]
    exact ⟨u, hu, persists_of_leads hids horderly ht hleads⟩
  . intro t ht r hvalid haware hstorable lookUp
    apply Tables.create_of_taken hvalid _ _ haware hstorable
    . exact horderly.ready (List.ne_nil_of_mem ht)
    . rw [Store.tableNamed?, List.find?_isSome]
      exact ⟨t, ht, by simp⟩

theorem schema_after_edits :
    let table : TableRequest :=
      { tenantId := .text "x", name := .text "points", displayName := .text "Points" }
    let ops : List Operation := [
      .createTable table true, .createTable table false,
      .work "i" (.addField (.ready { name := "n", displayName := "N", type := .number })),
      .work "i" (.addField (.ready { name := "n", displayName := "Again", type := .text })),
      .work "i" (.updateTable (.text "Places") .null), .work "i" (.updateTable .null .null),
      .work "i" (.updateField "iii" (.ready { type := some (some .computed) })),
      .work "i" (.updateField "iii" (.ready
        { type := some (some .computed), formula := some (some "n") })),
      .work "i" (.deleteField "iii")]
    let w : World := { store := { isReady := true } }
    Function.Injective Source.sample.identifiers ∧ w.store.tables = [] ∧
      ((w.after .sample ops).store.tables.map fun t => (t.id, t.fields, t.version)) = [("i", [], 4)] ∧
      ∀ t ∈ (w.after .sample ops).store.tables, t.IsWellFormed ∧
        t.version = (w.succeeded .sample ops).countP (·.revises t.id) := by
  intro table ops w
  refine ⟨Source.sample_injective, rfl, by decide +kernel, ?_⟩
  exact (schema_after .sample Source.sample_injective w rfl ops []).2.2.1

end World
end TenantTables
