import Mathlib.Data.List.Induction
import TenantTables.Proofs.Operation.Schema

namespace TenantTables

open Program

theorem Program.run_filterM (source : Source) (w : World) {p : α → Program Bool} {q : α → Bool}
    {as : List α} (h : ∀ a ∈ as, (p a).run source w = (.ok (q a), w)) :
    (as.filterM p).run source w = (.ok (as.filter q), w) := by
  have hgo (kept : List α) :
      (as.filterAuxM p kept).run source w = (.ok ((as.filter q).reverse ++ kept), w) := by
    induction as generalizing kept with
    | nil => rfl
    | cons a as ih =>
      have hrest := ih fun b hb => h b (List.mem_cons_of_mem _ hb)
      rw [List.filterAuxM, run_bind, h a List.mem_cons_self]
      dsimp only
      rw [hrest]
      cases hq : q a <;> simp [hq]
  rw [List.filterM, run_bind, hgo]
  simp

def Store.fieldNamesOf (s : Store) (tableId : String) : List String :=
  ((s.table? tableId).map (·.fieldNames)).getD []

theorem Store.fieldNamesOf_eq {s : Store} {tableId : String} {t : Table}
    (h : s.table? tableId = some t) : s.fieldNamesOf tableId = t.fieldNames := by
  rw [fieldNamesOf, h]
  rfl

namespace Tables

variable {source : Source} {w : World}

theorem dangles_some {t target : Table} {r : Relation} :
    dangles t (some target) r =
      decide (r.fromField ∉ t.fieldNames ∨ r.toField ∉ target.fieldNames) := by
  rw [Bool.eq_iff_iff]
  simp [dangles, Table.mem_fieldNames]

theorem run_danglingRelations {t : Table} (hready : w.store.isReady = true)
    (ht : w.store.table? t.id = some t)
    (htargets : ∀ r ∈ t.relations, (w.store.table? r.toTable).isSome = true) :
    (danglingRelations t.id).run source w =
      (.ok (t.relations.filter fun r =>
        r.fromField ∉ t.fieldNames ∨ r.toField ∉ w.store.fieldNamesOf r.toTable), w) := by
  have hask (id : String) : (ask (.table id)).run source w = (.ok (w.store.table? id), w) :=
    run_table_ok.mpr ⟨hready, rfl, rfl⟩
  have hload : (requireTable t.id).run source w = (.ok t, w) := by
    rw [requireTable, run_bind, hask, ht]
    rfl
  rw [danglingRelations, run_bind, hload]
  apply run_filterM
  intro r hr
  obtain ⟨target, htarget⟩ := Option.isSome_iff_exists.mp (htargets r hr)
  dsimp only
  split
  . next hself =>
    have htarget' : target = t := by
      rw [hself, ht, Option.some.injEq] at htarget
      exact htarget.symm
    rw [pure_bind, run_pure, dangles_some, Store.fieldNamesOf_eq htarget, htarget']
  . rw [run_bind, hask, htarget]
    dsimp only
    rw [run_pure, dangles_some, Store.fieldNamesOf_eq htarget]

theorem Edited.relations {w' : World} {tableId : String} {old edit t new : Table}
    (h : Edited source w w' tableId old edit t) (hnew : w'.store.table? tableId = some new) :
    new.relations = edit.relations := by
  obtain ⟨kept, hkept, hid, hstore⟩ := h.store
  obtain ⟨_, _, hshape⟩ := h.shape
  obtain ⟨_, -, hoverwritten⟩ := Table.overwrite_ok hkept
  rw [hstore, Store.table?_putTable, if_pos hid.symm, Option.some.injEq] at hnew
  rw [← hnew, hoverwritten, hshape]

end Tables

theorem Work.relations_of_run {source : Source} {w w' : World} {tableId : String} {job : Work}
    {answer : Answer} {old new : Table} (h : (job.program tableId).run source w = (.ok answer, w'))
    (hold : w.store.table? tableId = some old) (hnew : w'.store.table? tableId = some new) :
    new.relations = old.relations ∨ ∃ request target r, job = .createRelation request ∧
      Tables.Relates w.store old target r ∧ new.relations = old.relations ++ [r] := by
  have hsame (hstore : w'.store.tables = w.store.tables) : new.relations = old.relations := by
    rw [Store.table?, hstore, ← Store.table?, hold] at hnew
    rw [Option.some.inj hnew]
  cases hdone : Work.done_of_run h with
  | unchanged _ _ _ _ hw => exact .inl (hsame (by rw [hw]))
  | inserted _ hinserted =>
    obtain ⟨-, _, -, hstore⟩ := hinserted.store
    exact .inl (hsame (by rw [hstore, Store.tables_putRecord]))
  | updated _ hupdated =>
    obtain ⟨-, _, -, hstore⟩ := hupdated.store
    exact .inl (hsame (by rw [hstore, Store.tables_putRecord]))
  | deleted hdeleted =>
    obtain ⟨-, _, -, hstore⟩ := hdeleted.store
    exact .inl (hsame (by rw [hstore, Store.tables_putRecord]))
  | edited hedit hedited _ =>
    have hfound := hedited.found
    rw [hold] at hfound
    obtain rfl := Option.some.inj hfound
    have hrelations := hedited.relations hnew
    cases hedit with
    | createRelation =>
      right
      obtain ⟨t, hrun, -⟩ := run_map_ok.mp h
      obtain ⟨old', target, r, hrelates, hcreated, -⟩ := Tables.createRelation_ok hrun
      have hfound := hcreated.found
      rw [hold] at hfound
      obtain rfl := Option.some.inj hfound
      exact ⟨_, target, r, rfl, hrelates, hcreated.relations hnew⟩
    | _ => exact .inl hrelations

namespace Operation

structure Creates (source : Source) (w : World) (op : Operation) (old target : Table) (r : Relation) :
    Prop where
  request : ∃ request, op = .work r.fromTable (.createRelation request)
  found : w.store.table? r.fromTable = some old
  relates : Tables.Relates w.store old target r
  added : ∃ new, (op.program.run source w).2.store.table? r.fromTable = some new ∧
    new.relations = old.relations ++ [r]

def Removes (source : Source) (w : World) (op : Operation) (tableId name : String) : Prop :=
  ∃ t f answer, w.store.table? tableId = some t ∧ f ∈ t.fields ∧ f.name = name ∧
    op = .work tableId (.deleteField f.id) ∧ (op.program.run source w).1 = .ok answer

theorem Creates.not_removes {source : Source} {w : World} {op : Operation} {old target : Table} {r : Relation}
    (h : op.Creates source w old target r) (tableId name : String) :
    ¬op.Removes source w tableId name := by
  rintro ⟨_, _, _, -, -, -, heq, -⟩
  obtain ⟨request, hrequest⟩ := h.request
  rw [hrequest] at heq
  simp at heq

end Operation

namespace World

def Removes (source : Source) (w : World) (ops : List Operation) (tableId name : String) : Prop :=
  ∃ before op later, ops = before ++ op :: later ∧
    op.Removes source (w.after source before) tableId name

variable {source : Source} {w : World}

theorem relations_run (op : Operation) {u : Table}
    (hu : u ∈ (op.program.run source w).2.store.tables) {r : Relation} (hr : r ∈ u.relations) :
    (∃ t ∈ w.store.tables, t.id = u.id ∧ r ∈ t.relations) ∨
      ∃ old target, r.fromTable = u.id ∧ op.Creates source w old target r := by
  have hredefines := op.redefines_of_run source w
  rcases hrun : op.program.run source w with ⟨result, w'⟩
  rw [hrun] at hredefines hu
  cases hredefines with
  | none htables _ _ _ =>
    left
    exact ⟨u, htables ▸ hu, rfl, hr⟩
  | created hcreated =>
    left
    obtain ⟨-, new, hnew, -, hstore⟩ := hcreated.store
    obtain ⟨_, _, _, _, hshape⟩ := hcreated.shape
    obtain ⟨_, _, -, -, hnewshape⟩ := Table.stored_ok hnew
    dsimp only at hu
    rw [hstore, Store.mem_putTable] at hu
    rcases hu with rfl | ⟨hu, -⟩
    . rw [hnewshape, hshape] at hr
      simp at hr
    . exact ⟨u, hu, rfl, hr⟩
  | @revised tableId job answer old new hold hrevised =>
    dsimp only at hu
    obtain rfl := Store.table?_id hold
    rw [hrevised.store, Store.mem_putTable] at hu
    rcases hu with rfl | ⟨hu, -⟩
    . have hnew : w'.store.table? old.id = some u := by
        rw [hrevised.store, Store.table?_putTable, if_pos hrevised.id.symm]
      rcases Work.relations_of_run hrun hold hnew with
        hsame | ⟨request, target, q, rfl, hrelates, hadded⟩
      . left
        exact ⟨old, Store.table?_mem hold, hrevised.id.symm, hsame ▸ hr⟩
      . rw [hadded] at hr
        rcases List.mem_append.mp hr with hr | hr
        . exact .inl ⟨old, Store.table?_mem hold, hrevised.id.symm, hr⟩
        . right
          obtain rfl := List.mem_singleton.mp hr
          refine ⟨old, target, hrelates.fromTable.trans hrevised.id.symm, ⟨request, ?_⟩, ?_, hrelates,
            u, ?_, hadded⟩
          . rw [hrelates.fromTable]
          . rw [hrelates.fromTable, hold]
          . rw [hrun, hrelates.fromTable, hnew]
    . exact .inl ⟨u, hu, rfl, hr⟩

theorem exists_creates (hempty : w.store.tables = []) (ops : List Operation) {t : Table} (ht : t ∈ (w.after source ops).store.tables) {r : Relation}
    (hr : r ∈ t.relations) :
    ∃ before op later old target, ops = before ++ op :: later ∧ r.fromTable = t.id ∧
      op.Creates source (w.after source before) old target r := by
  induction ops using List.reverseRecOn generalizing t with
  | nil =>
    rw [after, List.foldl_nil, hempty] at ht
    simp at ht
  | append_singleton ops op ih =>
    rw [after_append] at ht
    rcases relations_run op ht hr with ⟨u, hu, hid, hru⟩ | ⟨old, target, hfrom, hcreates⟩
    . obtain ⟨before, op', later, old, target, rfl, hfrom, hcreates⟩ := ih hu hru
      refine ⟨before, op', later ++ [op], old, target, ?_, hfrom.trans hid, hcreates⟩
      simp
    . exact ⟨ops, op, [], old, target, rfl, hfrom, hcreates⟩

theorem exists_of_mem_succeeded {ops : List Operation} {op : Operation}
    (h : op ∈ w.succeeded source ops) :
    ∃ before later answer, ops = before ++ op :: later ∧
      (op.program.run source (w.after source before)).1 = .ok answer := by
  induction ops generalizing w with
  | nil => simp [succeeded] at h
  | cons op' ops ih =>
    have hlater (w' : World) (hrun : (op'.program.run source w).2 = w')
        (h : op ∈ w'.succeeded source ops) : ∃ before later answer,
        op' :: ops = before ++ op :: later ∧
          (op.program.run source (w.after source before)).1 = .ok answer := by
      obtain ⟨before, later, answer, rfl, hanswer⟩ := ih h
      refine ⟨op' :: before, later, answer, rfl, ?_⟩
      rw [after, List.foldl_cons, hrun]
      exact hanswer
    rw [succeeded] at h
    rcases hrun : op'.program.run source w with ⟨e | answer, w'⟩
    . rw [hrun] at h
      exact hlater w' (by rw [hrun]) h
    . rw [hrun] at h
      rcases List.mem_cons.mp h with rfl | h
      . exact ⟨[], ops, answer, rfl, by rw [after, List.foldl_nil, hrun]⟩
      . exact hlater w' (by rw [hrun]) h

theorem removes_of_cons {op : Operation} {ops : List Operation} {tableId name : String}
    (h : w.Removes source (op :: ops) tableId name) :
    op.Removes source w tableId name ∨ (op.program.run source w).2.Removes source ops tableId name := by
  obtain ⟨before, op', later, hsplit, hremoves⟩ := h
  cases before with
  | nil =>
    obtain ⟨rfl, -⟩ := List.cons.inj hsplit
    exact .inl hremoves
  | cons op'' before =>
    obtain ⟨rfl, rfl⟩ := List.cons.inj hsplit
    exact .inr ⟨before, op', later, rfl, hremoves⟩

theorem removes_of_not_mem (hids : Function.Injective source.identifiers) (h : w.IsOrderly source)
    (ops : List Operation) {t : Table} (ht : t ∈ w.store.tables) :
    ∃ u ∈ (w.after source ops).store.tables, u.id = t.id ∧ u.tenantId = t.tenantId ∧
      ∀ name ∈ t.fieldNames, name ∉ u.fieldNames → w.Removes source ops t.id name := by
  obtain ⟨u, hu, hleads⟩ := leads_after hids h ops ht
  refine ⟨u, hu, hleads.id, hleads.tenantId, ?_⟩
  intro name hname hmissing
  obtain ⟨f, hf, rfl⟩ := List.mem_map.mp hname
  rcases (persists_of_leads hids h ht hleads).fields f hf with ⟨g, hg, -, hsame⟩ | hremoved
  . exact absurd (List.mem_map.mpr ⟨g, hg, hsame⟩) hmissing
  . obtain ⟨before, later, answer, rfl, hanswer⟩ := exists_of_mem_succeeded hremoved
    refine ⟨before, _, later, rfl, ?_⟩
    -- the field that was deleted is still the one of that name
    obtain ⟨v, hv, hleads'⟩ := leads_after hids h before ht
    have hfound := table?_of_mem (isOrderly_after hids h before) hv
    rw [hleads'.id] at hfound
    obtain ⟨t', hdelete, -⟩ := run_map_ok.mp
      (show ((Work.deleteField f.id).program t.id).run source (w.after source before) = (.ok answer, _)
        from Prod.ext hanswer rfl)
    obtain ⟨old, hexists, hedited, -⟩ := Tables.deleteField_ok hdelete
    have hsame := hedited.found
    rw [hfound] at hsame
    obtain rfl := Option.some.inj hsame
    obtain ⟨g, hg⟩ := Option.isSome_iff_exists.mp hexists
    have hgid : g.id = f.id := by simpa using List.find?_some hg
    have hgmem := List.mem_of_find?_eq_some hg
    have hgname := (persists_of_leads hids h ht hleads').names f hf g hgmem hgid
    exact ⟨v, g, answer, hfound, hgmem, hgname, by rw [hgid], hanswer⟩

theorem ends_of_creates (hids : Function.Injective source.identifiers) (h : w.IsOrderly source)
    {op : Operation} {old target : Table} {r : Relation} (hcreates : op.Creates source w old target r)
    (later : List Operation) :
    let u := (op.program.run source w).2
    ∃ t ∈ (u.after source later).store.tables, ∃ t' ∈ (u.after source later).store.tables,
      t.id = r.fromTable ∧ t'.id = r.toTable ∧ t'.tenantId = t.tenantId ∧
      (r.fromField ∉ t.fieldNames → u.Removes source later r.fromTable r.fromField) ∧
      (r.toField ∉ t'.fieldNames → u.Removes source later r.toTable r.toField) := by
  intro u
  have hremoves {tableId name : String} (hremoves : w.Removes source (op :: later) tableId name) :
      u.Removes source later tableId name :=
    (removes_of_cons hremoves).resolve_left (hcreates.not_removes tableId name)
  obtain ⟨t, ht, hid, htenant, hnames⟩ :=
    removes_of_not_mem hids h (op :: later) (Store.table?_mem hcreates.found)
  obtain ⟨t', ht', hid', htenant', hnames'⟩ :=
    removes_of_not_mem hids h (op :: later) (Store.table?_mem hcreates.relates.toTable)
  rw [Store.table?_id hcreates.found] at hid hnames
  rw [Store.table?_id hcreates.relates.toTable] at hid' hnames'
  refine ⟨t, ht, t', ht', hid, hid', ?_, ?_, ?_⟩
  . rw [htenant', hcreates.relates.tenantId, htenant]
  . intro hmissing
    exact hremoves (hnames _ hcreates.relates.fromField hmissing)
  . intro hmissing
    exact hremoves (hnames' _ hcreates.relates.toField hmissing)

theorem exists_origin (hids : Function.Injective source.identifiers) (hempty : w.store.tables = [])
    (ops : List Operation) {t : Table} (ht : t ∈ (w.after source ops).store.tables) {r : Relation}
    (hr : r ∈ t.relations) :
    let v := w.after source ops
    r.fromTable = t.id ∧
      (∃ target ∈ v.store.tables, target.id = r.toTable ∧ target.tenantId = t.tenantId) ∧
      ∃ before op later old target, ops = before ++ op :: later ∧
        op.Creates source (w.after source before) old target r ∧
        let u := w.after source (before ++ [op])
        (r.fromField ∉ t.fieldNames → u.Removes source later r.fromTable r.fromField) ∧
        (r.toField ∉ v.store.fieldNamesOf r.toTable →
          u.Removes source later r.toTable r.toField) := by
  intro v
  have horderly (ops : List Operation) : (w.after source ops).IsOrderly source :=
    isOrderly_after hids (isOrderly_of_nil hempty) ops
  obtain ⟨before, op, later, old, target, rfl, hfrom, hcreates⟩ := exists_creates hempty ops ht hr
  have hu : (op.program.run source (w.after source before)).2 = w.after source (before ++ [op]) :=
    (after_append source w before [op]).symm
  have hv : (w.after source (before ++ [op])).after source later = v := by
    rw [← after_append, List.append_assoc]
    rfl
  have hends := ends_of_creates hids (horderly before) hcreates later
  simp only [hu, hv] at hends
  obtain ⟨t', ht', target', htarget', hid, htargetId, htenant, hlacks, htargetLacks⟩ := hends
  have hsame : t' = t :=
    List.inj_on_of_nodup_map (horderly (before ++ op :: later)).ids ht' ht (hid.trans hfrom)
  have hnames : v.store.fieldNamesOf r.toTable = target'.fieldNames := by
    rw [← htargetId]
    exact Store.fieldNamesOf_eq (table?_of_mem (horderly _) htarget')
  rw [hsame] at htenant hlacks
  rw [← hnames] at htargetLacks
  exact ⟨hfrom, ⟨target', htarget', htargetId, htenant⟩, before, op, later, old, target, rfl, hcreates,
    hlacks, htargetLacks⟩

/--
The relations after a history that starts without tables. Each relation of a table leads from it to a table
that is there and has its tenant. The report changes nothing and returns, in order, those that lack a field.
Each of them was created by one of the operations, after which the field that it lacks was deleted from the
table that it leads from or to.
-/
theorem relations_after (source : Source) (hids : Function.Injective source.identifiers) (w : World)
    (hempty : w.store.tables = []) (ops : List Operation) :
    let v := w.after source ops
    ∀ t ∈ v.store.tables,
      (∀ r ∈ t.relations, r.fromTable = t.id ∧
        ∃ target ∈ v.store.tables, target.id = r.toTable ∧ target.tenantId = t.tenantId) ∧
      (Tables.danglingRelations t.id).run source v =
        (.ok (t.relations.filter fun r =>
          r.fromField ∉ t.fieldNames ∨ r.toField ∉ v.store.fieldNamesOf r.toTable), v) ∧
      (∀ r ∈ t.relations, ∃ before op later old target, ops = before ++ op :: later ∧
        op.Creates source (w.after source before) old target r ∧
        let u := w.after source (before ++ [op])
        (r.fromField ∉ t.fieldNames → u.Removes source later r.fromTable r.fromField) ∧
        (r.toField ∉ v.store.fieldNamesOf r.toTable →
          u.Removes source later r.toTable r.toField)) ∧
      ((∀ tableId fieldId, .work tableId (.deleteField fieldId) ∉ ops) →
        (Tables.danglingRelations t.id).run source v = (.ok [], v)) := by
  intro v t ht
  have horderly : v.IsOrderly source := isOrderly_after hids (isOrderly_of_nil hempty) ops
  have horigin := fun r hr => exists_origin hids hempty ops ht (r := r) hr
  have hreport : (Tables.danglingRelations t.id).run source v =
      (.ok (t.relations.filter fun r =>
        r.fromField ∉ t.fieldNames ∨ r.toField ∉ v.store.fieldNamesOf r.toTable), v) := by
    apply Tables.run_danglingRelations (horderly.ready (List.ne_nil_of_mem ht))
      (table?_of_mem horderly ht)
    intro r hr
    obtain ⟨-, ⟨target, htarget, hid, -⟩, -⟩ := horigin r hr
    rw [← hid, table?_of_mem horderly htarget]
    rfl
  refine ⟨fun r hr => ⟨(horigin r hr).1, (horigin r hr).2.1⟩, hreport,
    fun r hr => (horigin r hr).2.2, ?_⟩
  intro hnone
  rw [hreport, List.filter_eq_nil_iff.mpr]
  intro r hr hdangles
  obtain ⟨-, -, before, op, later, _, _, rfl, -, hlacks, htargetLacks⟩ := horigin r hr
  -- an operation that deletes a field would be one of those of the history
  have hnever (tableId name : String) :
      ¬(w.after source (before ++ [op])).Removes source later tableId name := by
    rintro ⟨first, _, rest, rfl, _, f, _, -, -, -, rfl, -⟩
    exact hnone tableId f.id (by simp)
  rcases of_decide_eq_true hdangles with hmissing | hmissing
  . exact hnever _ _ (hlacks hmissing)
  . exact hnever _ _ (htargetLacks hmissing)

theorem relations_after_deletion :
    let table (name : String) : Operation := .createTable
      { tenantId := .text "x", name := .text name, displayName := .text name } true
    let field (tableId name : String) : Operation :=
      .work tableId (.addField (.ready { name, displayName := name, type := .text }))
    let relation (toTable toField : String) : Operation := .work "i" (.createRelation
      (.ready { type := .manyToOne, toTable, fromField := "owner", toField }))
    let ops : List Operation := [table "pets", table "people", field "i" "owner", field "ii" "name",
      relation "i" "owner", relation "ii" "name", .work "ii" (.deleteField "iiii")]
    let w : World := { store := { isReady := true } }
    let report (ops : List Operation) :=
      ((Tables.danglingRelations "i").run .sample (w.after .sample ops)).1.map (·.map (·.toField))
    Function.Injective Source.sample.identifiers ∧ w.store.tables = [] ∧
      report ops = .ok ["name"] ∧ report (ops ++ [field "ii" "name"]) = .ok [] ∧
      ∃ t ∈ (w.after .sample ops).store.tables, t.id = "i" ∧ ∀ r ∈ t.relations,
        ∃ before op later old target, ops = before ++ op :: later ∧
          op.Creates .sample (w.after .sample before) old target r ∧
          (r.toField ∉ (w.after .sample ops).store.fieldNamesOf r.toTable →
            (w.after .sample (before ++ [op])).Removes .sample later r.toTable r.toField) := by
  intro table field relation ops w report
  have hfound : ((w.after .sample ops).store.table? "i").isSome = true := by decide +kernel
  obtain ⟨t, ht⟩ := Option.isSome_iff_exists.mp hfound
  have hmem := Store.table?_mem ht
  refine ⟨Source.sample_injective, rfl, by decide +kernel, by decide +kernel, t, hmem,
    Store.table?_id ht, ?_⟩
  intro r hr
  obtain ⟨before, op, later, old, target, hsplit, hcreates, -, hlacks⟩ :=
    (relations_after .sample Source.sample_injective w rfl ops t hmem).2.2.1 r hr
  exact ⟨before, op, later, old, target, hsplit, hcreates, hlacks⟩

end World
end TenantTables
