import TenantTables.Operation.Request
import TenantTables.Proofs.Storage.Writes

/-!
This module contains how runs of programs come apart into runs of their parts, and the shape that
operations have: they only read, then write at most once, and fail if the write does.
-/

namespace TenantTables

namespace Call

def isRead : Call β → Bool
  | acquire _ | release _ | insertTable _ | saveTable _ | saveRecord _ => false
  | _ => true

def isWrite : Call β → Bool
  | insertTable _ | saveTable _ | saveRecord _ => true
  | _ => false

def isSearch : Call β → Bool
  | record _ => false
  | c => c.isRead

theorem isRead_of_isSearch {c : Call β} (h : c.isSearch = true) : c.isRead = true := by
  cases c <;> first | exact h | rfl

end Call

section Answer

variable (source : Source) (w : World)

theorem World.store_answer_of_isRead {c : Call β} (h : c.isRead = true) :
    (w.answer source c).2.store = w.store := by
  cases c <;> first | rfl | simp [Call.isRead] at h

theorem World.store_answer_of_error {c : Call β} {e : Failure}
    (h : (w.answer source c).1 = .error e) : (w.answer source c).2.store = w.store := by
  cases c with
  | insertTable t =>
    simp only [World.answer, World.answer.write] at h ⊢
    split at h <;> simp_all
  | saveTable t =>
    simp only [World.answer, World.answer.write] at h ⊢
    split at h <;> simp_all
  | saveRecord r =>
    simp only [World.answer, World.answer.write] at h ⊢
    split at h <;> simp_all
  | _ => rfl

theorem World.identifiers_le_answer (c : Call β) :
    w.identifiers ≤ (w.answer source c).2.identifiers := by
  cases c with
  | insertTable t => cases h : w.store.insertTable t <;> simp [World.answer, World.answer.write, h]
  | saveTable t => cases h : w.store.saveTable t <;> simp [World.answer, World.answer.write, h]
  | saveRecord r => cases h : w.store.saveRecord r <;> simp [World.answer, World.answer.write, h]
  | identifier => exact Nat.le_succ _
  | _ => exact Nat.le_refl _

end Answer

namespace Program

instance : LawfulMonad Program :=
  .mk' Program bind_done (fun _ _ => rfl) bind_bind

section Run

variable {source : Source} {w w' : World}

theorem run_bind_ok {p : Program α} {f : α → Program β} {b : β} :
    (p >>= f).run source w = (.ok b, w') ↔
      ∃ a v, p.run source w = (.ok a, v) ∧ (f a).run source v = (.ok b, w') := by
  rw [run_bind]
  rcases p.run source w with ⟨_ | a, v⟩
  . simp
  . constructor
    . intro h
      exact ⟨a, v, rfl, h⟩
    . rintro ⟨a', v', heq, h⟩
      cases heq
      exact h

theorem run_lift_ok {r : Outcome α} {a : α} :
    (liftM r : Program α).run source w = (.ok a, w') ↔ r = .ok a ∧ w = w' := by
  rw [run_lift, Prod.mk.injEq]

theorem run_lift_bind_ok {r : Outcome α} {f : α → Program β} {b : β} :
    ((liftM r : Program α) >>= f).run source w = (.ok b, w') ↔
      ∃ a, r = .ok a ∧ (f a).run source w = (.ok b, w') := by
  rw [run_bind_ok]
  constructor
  . rintro ⟨a, v, hr, h⟩
    obtain ⟨ha, rfl⟩ := run_lift_ok.mp hr
    exact ⟨a, ha, h⟩
  . rintro ⟨a, ha, h⟩
    exact ⟨a, w, run_lift_ok.mpr ⟨ha, rfl⟩, h⟩

theorem run_ite_throw_ok {c : Prop} [Decidable c] {e : Failure} {f : β → Program α}
    {p : Program α} {a : α} :
    (if c then (throw e : Program β) >>= f else p).run source w = (.ok a, w') ↔
      ¬c ∧ p.run source w = (.ok a, w') := by
  split
  . next h => simp [h, run_bind]
  . next h => simp [h]

theorem run_ite_reject_ok {c : Prop} [Decidable c] {rule : Rule} {field : String} {value : Value}
    {f : β → Program α} {p : Program α} {a : α} :
    (if c then (liftM (reject rule field value : Outcome β) : Program β) >>= f
        else p).run source w = (.ok a, w') ↔
      ¬c ∧ p.run source w = (.ok a, w') := by
  split
  . next h => simp [h, run_bind, reject]
  . next h => simp [h]

theorem run_pure_ok {a b : α} :
    (pure a : Program α).run source w = (.ok b, w') ↔ a = b ∧ w = w' := by
  rw [run_pure, Prod.mk.injEq, Except.ok.injEq]

theorem run_map_ok {p : Program α} {f : α → β} {b : β} :
    (p >>= fun a => pure (f a)).run source w = (.ok b, w') ↔
      ∃ a, p.run source w = (.ok a, w') ∧ f a = b := by
  rw [run_bind_ok]
  constructor
  . rintro ⟨a, v, ha, h⟩
    obtain ⟨rfl, rfl⟩ := run_pure_ok.mp h
    exact ⟨a, ha, rfl⟩
  . rintro ⟨a, ha, rfl⟩
    exact ⟨a, w', ha, rfl⟩

theorem world_run_map (source : Source) (w : World) (p : Program α) (f : α → β) :
    ((p >>= fun a => pure (f a)).run source w).2 = (p.run source w).2 := by
  rw [run_bind]
  rcases p.run source w with ⟨_ | _, _⟩ <;> rfl

theorem run_clock_bind_ok {f : Moment → Program β} {b : β} :
    (ask .clock >>= f).run source w = (.ok b, w') ↔
      (f (source.clock w.readings)).run source { w with readings := w.readings + 1 } =
        (.ok b, w') := by
  rw [run_bind]
  rfl

theorem run_identifier_bind_ok {f : String → Program β} {b : β} :
    (ask .identifier >>= f).run source w = (.ok b, w') ↔
      (f (source.identifiers w.identifiers)).run source
        { w with identifiers := w.identifiers + 1 } = (.ok b, w') := by
  rw [run_bind]
  rfl

theorem run_saveRecord_ok {r : Record} :
    (ask (.saveRecord r)).run source w = (.ok (), w') ↔
      ∃ s, w.store.saveRecord r = .ok s ∧ w' = { w with store := s } := by
  rw [run_ask]
  cases h : w.store.saveRecord r <;> simp [World.answer, World.answer.write, h, eq_comm]

theorem run_saveTable_ok {t : Table} :
    (ask (.saveTable t)).run source w = (.ok (), w') ↔
      ∃ s, w.store.saveTable t = .ok s ∧ w' = { w with store := s } := by
  rw [run_ask]
  cases h : w.store.saveTable t <;> simp [World.answer, World.answer.write, h, eq_comm]

theorem run_insertTable_ok {t : Table} :
    (ask (.insertTable t)).run source w = (.ok (), w') ↔
      ∃ s, w.store.insertTable t = .ok s ∧ w' = { w with store := s } := by
  rw [run_ask]
  cases h : w.store.insertTable t <;> simp [World.answer, World.answer.write, h, eq_comm]

theorem run_select_ok {s : Selection} {rs : List Record} :
    (ask (.select s)).run source w = (.ok rs, w') ↔ w.store.select s = .ok rs ∧ w = w' := by
  rw [run_ask, World.answer, World.answer.read, Prod.mk.injEq]

theorem run_liveCounts_ok {tableIds : List String} {counts : List (String × Nat)} :
    (ask (.liveCounts tableIds)).run source w = (.ok counts, w') ↔
      w.store.liveCounts tableIds = .ok counts ∧ w = w' := by
  rw [run_ask, World.answer, World.answer.read, Prod.mk.injEq]

theorem run_tablesOf_ok {tenantId : String} {tables : List Table} :
    (ask (.tablesOf tenantId)).run source w = (.ok tables, w') ↔
      w.store.isReady = true ∧ w.store.tablesOf tenantId = tables ∧ w = w' := by
  rw [run_ask, World.answer, World.answer.read, Prod.mk.injEq]
  unfold Store.requireReady
  split <;> simp_all [Bind.bind, Except.bind, pure, Except.pure]

theorem run_table_ok {id : String} {t : Option Table} :
    (ask (.table id)).run source w = (.ok t, w') ↔
      w.store.isReady = true ∧ w.store.table? id = t ∧ w = w' := by
  rw [run_ask, World.answer, World.answer.read, Prod.mk.injEq]
  unfold Store.requireReady
  split <;> simp_all [Bind.bind, Except.bind, pure, Except.pure]

theorem run_record_ok {id : String} {r : Option Record} :
    (ask (.record id)).run source w = (.ok r, w') ↔
      w.store.isReady = true ∧ w.store.record? id = r ∧ w = w' := by
  rw [run_ask, World.answer, World.answer.read, Prod.mk.injEq]
  unfold Store.requireReady
  split <;> simp_all [Bind.bind, Except.bind, pure, Except.pure]

theorem requireTable_ok {id : String} {t : Table}
    (h : (requireTable id).run source w = (.ok t, w')) :
    w.store.isReady = true ∧ w.store.table? id = some t ∧ w = w' := by
  unfold requireTable at h
  obtain ⟨found, v, hasked, h⟩ := run_bind_ok.mp h
  obtain ⟨hready, hfound, rfl⟩ := run_table_ok.mp hasked
  cases found with
  | none => simp at h
  | some t' =>
    obtain ⟨rfl, rfl⟩ := run_pure_ok.mp h
    exact ⟨hready, hfound, rfl⟩

theorem run_requireTable {id : String} {t : Table} (hready : w.store.isReady = true)
    (hfound : w.store.table? id = some t) : (requireTable id).run source w = (.ok t, w) :=
  run_bind_ok.mpr ⟨some t, w, run_table_ok.mpr ⟨hready, hfound, rfl⟩, rfl⟩

theorem requireRecord_ok {tableId recordId : String} {r : Record}
    (h : (requireRecord tableId recordId).run source w = (.ok r, w')) :
    w.store.isReady = true ∧ w.store.record? recordId = some r ∧ r.isDeleted = false ∧
      r.tableId = tableId ∧ w = w' := by
  unfold requireRecord at h
  obtain ⟨found, v, hasked, h⟩ := run_bind_ok.mp h
  obtain ⟨hready, hfound, rfl⟩ := run_record_ok.mp hasked
  cases found with
  | none => simp at h
  | some r' =>
    obtain ⟨hdeleted, h⟩ := run_ite_throw_ok.mp h
    obtain ⟨hforeign, h⟩ := run_ite_throw_ok.mp h
    obtain ⟨rfl, rfl⟩ := run_pure_ok.mp h
    exact ⟨hready, hfound, by simpa using hdeleted, by simpa using hforeign, rfl⟩

end Run

theorem identifiers_le_run (source : Source) (w : World) (p : Program α) :
    w.identifiers ≤ (p.run source w).2.identifiers := by
  induction p generalizing w with
  | done r => exact Nat.le_refl _
  | call c next ih => exact Nat.le_trans (w.identifiers_le_answer source c) (ih _ _)

def Uses (allowed : {β : Type} → Call β → Bool) : Program α → Prop
  | done _ => True
  | call c next => allowed c = true ∧ ∀ r, (next r).Uses allowed

section Uses

variable {allowed : {β : Type} → Call β → Bool}

theorem uses_bind {p : Program α} {f : α → Program β} (hp : p.Uses allowed)
    (hf : ∀ a, (f a).Uses allowed) : (p >>= f).Uses allowed := by
  induction p with
  | done r =>
    cases r with
    | error e => trivial
    | ok a => exact hf a
  | call c next ih => exact ⟨hp.1, fun r => ih r (hp.2 r)⟩

theorem uses_ask {c : Call α} (h : allowed c = true) : (ask c).Uses allowed :=
  ⟨h, fun _ => trivial⟩

theorem uses_pure (a : α) : (pure a : Program α).Uses allowed := trivial

theorem uses_lift (r : Outcome α) : (liftM r : Program α).Uses allowed := trivial

theorem uses_attempt {p : Program α} (h : p.Uses allowed) : p.attempt.Uses allowed := by
  induction p with
  | done r => trivial
  | call c next ih => exact ⟨h.1, fun r => ih r (h.2 r)⟩

theorem uses_locked {tableId : String} {p : Program α} (hacquire : allowed (.acquire tableId) = true)
    (hrelease : allowed (.release tableId) = true) (h : p.Uses allowed) :
    (locked tableId p).Uses allowed := by
  apply uses_bind (uses_ask hacquire)
  intro _
  apply uses_bind (uses_attempt h)
  intro result
  exact uses_bind (uses_ask hrelease) fun _ => uses_lift result

theorem uses_tryCatch {p : Program α} {f : Failure → Program α} (hp : p.Uses allowed)
    (hf : ∀ e, (f e).Uses allowed) : (tryCatch p f).Uses allowed := by
  show (p.handle f).Uses allowed
  induction p with
  | done r =>
    cases r with
    | error e => exact hf e
    | ok a => trivial
  | call c next ih => exact ⟨hp.1, fun r => ih r (hp.2 r)⟩

theorem uses_ite_reject {c : Prop} [Decidable c] {rule : Rule} {field : String} {value : Value}
    {f : β → Program α} {p : Program α} (h : p.Uses allowed) :
    (if c then (liftM (reject rule field value : Outcome β) : Program β) >>= f else p).Uses allowed := by
  split
  . trivial
  . exact h

theorem uses_filterM {p : α → Program Bool} (h : ∀ a, (p a).Uses allowed) (as : List α) :
    (as.filterM p).Uses allowed := by
  have hgo (kept : List α) : (as.filterAuxM p kept).Uses allowed := by
    induction as generalizing kept with
    | nil => trivial
    | cons a as ih => exact uses_bind (h a) fun keep => ih _
  exact uses_bind (hgo []) fun _ => trivial

theorem uses_mono {allowed' : {β : Type} → Call β → Bool}
    (hle : ∀ {β : Type} (c : Call β), allowed c = true → allowed' c = true) {p : Program α}
    (hp : p.Uses allowed) : p.Uses allowed' := by
  induction p with
  | done r => trivial
  | call c next ih => exact ⟨hle c hp.1, fun r => ih r (hp.2 r)⟩

end Uses

def Reads (p : Program α) : Prop :=
  p.Uses Call.isRead

theorem reads_lift (r : Outcome α) : (liftM r : Program α).Reads := trivial

theorem reads_pure (a : α) : (pure a : Program α).Reads := trivial

theorem reads_bind {p : Program α} {f : α → Program β} (hp : p.Reads) (hf : ∀ a, (f a).Reads) :
    (p >>= f).Reads :=
  uses_bind hp hf

theorem reads_of_searches {p : Program α} (h : p.Uses Call.isSearch) : p.Reads :=
  uses_mono (fun _ hc => Call.isRead_of_isSearch hc) h

theorem uses_requireTable {allowed : {β : Type} → Call β → Bool} {id : String}
    (h : allowed (.table id) = true) : (requireTable id).Uses allowed := by
  apply uses_bind (uses_ask h)
  intro found
  cases found <;> trivial

theorem searches_requireTable (id : String) : (requireTable id).Uses Call.isSearch :=
  uses_requireTable rfl

theorem reads_requireTable (id : String) : (requireTable id).Reads :=
  reads_of_searches (searches_requireTable id)

theorem reads_requireRecord (tableId recordId : String) : (requireRecord tableId recordId).Reads := by
  apply reads_bind (uses_ask rfl)
  intro found
  cases found with
  | none => trivial
  | some r =>
    dsimp only
    split
    . trivial
    . split <;> trivial

theorem store_run_of_reads {p : Program α} (h : p.Reads) (source : Source) (w : World) :
    (p.run source w).2.store = w.store := by
  induction p generalizing w with
  | done r => rfl
  | call c next ih => exact (ih _ (h.2 _) _).trans (w.store_answer_of_isRead source h.1)

/--
A program that reads, then writes at most once, and whose result is a failure exactly if its write
fails.
-/
inductive WritesLast : Program α → Prop where
  | done (r : Outcome α) : WritesLast (done r)
  | read {c : Call β} {next : Outcome β → Program α} (hc : c.isRead = true)
    (hnext : ∀ r, WritesLast (next r)) : WritesLast (call c next)
  | write {c : Call β} {next : Outcome β → Program α} (hc : c.isWrite = true)
    (herror : ∀ e, ∃ e', next (.error e) = Program.done (.error e'))
    (hok : ∀ b, ∃ a, next (.ok b) = Program.done (.ok a)) : WritesLast (call c next)

theorem writesLast_bind {p : Program α} {f : α → Program β} (hp : p.Reads)
    (hf : ∀ a, (f a).WritesLast) : (p >>= f).WritesLast := by
  induction p with
  | done r =>
    cases r with
    | error e => exact .done _
    | ok a => exact hf a
  | call c next ih => exact .read hp.1 fun r => ih r (hp.2 r)

theorem writesLast_map {p : Program α} (hp : p.WritesLast) (f : α → β) :
    (p >>= fun a => pure (f a)).WritesLast := by
  induction hp with
  | done r => cases r <;> exact .done _
  | read hc _ ih => exact .read hc fun r => ih r f
  | write hc herror hok =>
    apply WritesLast.write hc
    . intro e
      obtain ⟨e', he⟩ := herror e
      exact ⟨e', congrArg (bind · _) he⟩
    . intro b
      obtain ⟨a, ha⟩ := hok b
      exact ⟨f a, congrArg (bind · _) ha⟩

theorem writesLast_ask {c : Call β} (h : c.isWrite = true) (a : α) :
    (ask c >>= fun _ => pure a).WritesLast :=
  .write h (fun e => ⟨e, rfl⟩) (fun _ => ⟨a, rfl⟩)

theorem store_run_of_error {p : Program α} (h : p.WritesLast) (source : Source) (w : World)
    {e : Failure} (herror : (p.run source w).1 = .error e) :
    (p.run source w).2.store = w.store := by
  induction h generalizing w with
  | done r => rfl
  | read hc _ ih => exact (ih _ _ herror).trans (w.store_answer_of_isRead source hc)
  | @write _ β c next hc hfails hreturns =>
    have hrun : (call c next).run source w =
        (next (w.answer source c).1).run source (w.answer source c).2 := rfl
    rw [hrun] at herror ⊢
    cases hanswer : (w.answer source c).1 with
    | error e' =>
      obtain ⟨e'', he⟩ := hfails e'
      rw [he]
      exact w.store_answer_of_error source hanswer
    | ok b =>
      obtain ⟨a, ha⟩ := hreturns b
      rw [hanswer, ha] at herror
      exact absurd herror (by simp [run])

theorem attempt_map (p : Program α) (f : α → β) :
    (p >>= fun a => pure (f a)).attempt = (p.attempt >>= fun r => pure (r.map f)) := by
  induction p with
  | done r => cases r <;> rfl
  | call c next ih => exact congrArg (call c) (funext ih)

theorem locked_map (tableId : String) (p : Program α) (f : α → β) :
    (locked tableId p >>= fun a => pure (f a)) = locked tableId (p >>= fun a => pure (f a)) := by
  unfold locked
  rw [attempt_map]
  simp only [bind_assoc, pure_bind]
  apply congrArg
  funext _
  apply congrArg
  funext r
  apply congrArg
  funext _
  cases r <;> rfl

def IsGuarded (tableId : String) (p : Program α) : Prop :=
  (∃ body : Program α, body.WritesLast ∧ p = locked tableId body) ∨ ∃ e, p = done (.error e)

theorem isGuarded_locked {tableId : String} {body : Program α} (h : body.WritesLast) :
    (locked tableId body).IsGuarded tableId :=
  .inl ⟨body, h, rfl⟩

theorem isGuarded_lift_bind {tableId : String} {r : Outcome α} {f : α → Program β}
    (hf : ∀ a, (f a).IsGuarded tableId) : ((liftM r : Program α) >>= f).IsGuarded tableId := by
  cases r with
  | error e => exact .inr ⟨e, rfl⟩
  | ok a => exact hf a

theorem isGuarded_map {tableId : String} {p : Program α} (h : p.IsGuarded tableId) (f : α → β) :
    (p >>= fun a => pure (f a)).IsGuarded tableId := by
  rcases h with ⟨body, hbody, rfl⟩ | ⟨e, rfl⟩
  . rw [locked_map]
    exact isGuarded_locked (writesLast_map hbody f)
  . exact .inr ⟨e, rfl⟩

theorem store_run_of_isGuarded {tableId : String} {p : Program α} (h : p.IsGuarded tableId)
    (source : Source) (w : World) {e : Failure} (herror : (p.run source w).1 = .error e) :
    (p.run source w).2.store = w.store := by
  rcases h with ⟨body, hbody, rfl⟩ | ⟨e, rfl⟩
  . rw [run_locked] at herror ⊢
    exact store_run_of_error hbody source w herror
  . rfl

end Program
end TenantTables
