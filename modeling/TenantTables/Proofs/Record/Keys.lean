import TenantTables.Proofs.Record.Data

namespace TenantTables

namespace Entries

variable {es top : Entries} {k : String}

theorem mem_keys_put (es : Entries) (k : String) (v : Value) (l : String) :
    l ∈ (es.put k v).keys ↔ l ∈ es.keys ∨ l = k := by
  rw [keys_put]
  split
  . next hmem =>
    rw [contains_iff_mem_keys] at hmem
    constructor
    . exact .inl
    . rintro (hl | rfl)
      . exact hl
      . exact hmem
  . simp

theorem keys_subset_put (es : Entries) (k : String) (v : Value) : es.keys ⊆ (es.put k v).keys :=
  fun l hl => (mem_keys_put es k v l).mpr (.inl hl)

theorem keys_subset_overlay (es top : Entries) : es.keys ⊆ (es.overlay top).keys := by
  induction top generalizing es with
  | nil => exact List.Subset.refl _
  | cons e top ih => exact List.Subset.trans (keys_subset_put es e.1 e.2) (ih _)

theorem get?_overlay_of_not_mem (h : k ∉ top.keys) : (es.overlay top).get? k = es.get? k := by
  induction top generalizing es with
  | nil => rfl
  | cons e top ih =>
    obtain ⟨hne, htop⟩ : k ≠ e.1 ∧ k ∉ keys top := by simpa [keys] using h
    show (overlay (es.put e.1 e.2) top).get? k = es.get? k
    rw [ih htop, get?_put, if_neg hne]

end Entries

section Fields

variable {fields : List Field} {data data' : Entries}

theorem keys_subset_validate (h : validate fields data = .ok data') : data.keys ⊆ data'.keys := by
  refine Outcome.foldlM_keeps (P := fun es : Entries => data.keys ⊆ es.keys) ?_ (List.Subset.refl _) h
  intro es f _ es' hes h
  obtain ⟨o, -, h⟩ := Outcome.bind_eq_ok.mp h
  cases o with
  | none => exact Except.ok.inj h ▸ hes
  | some v => exact Except.ok.inj h ▸ List.Subset.trans hes (Entries.keys_subset_put es f.name v)

theorem mem_keys_of_foldlM {value : Entries → Field → Outcome Value} {start : Entries}
    (h : fields.foldlM (fun es f => do return es.put f.name (← value es f)) start = .ok data') {k : String}
    (hk : k ∈ start.keys ∨ ∃ f ∈ fields, f.name = k) : k ∈ data'.keys := by
  induction fields generalizing start with
  | nil =>
    obtain rfl := Except.ok.inj h
    simpa using hk
  | cons f fields ih =>
    rw [List.foldlM_cons] at h
    obtain ⟨es, hes, h⟩ := Outcome.bind_eq_ok.mp h
    obtain ⟨v, -, hes⟩ := Outcome.bind_eq_ok.mp hes
    apply ih h
    rw [← Except.ok.inj hes, Entries.mem_keys_put]
    rcases hk with hk | ⟨g, hg, rfl⟩
    . exact .inl (.inl hk)
    . rcases List.mem_cons.mp hg with rfl | hg
      . exact .inl (.inr rfl)
      . exact .inr ⟨g, hg, rfl⟩

theorem keys_subset_computeFields (h : computeFields fields data = .ok data') : data.keys ⊆ data'.keys := by
  intro k hk
  apply mem_keys_of_foldlM h
  by_cases hcomputed : ∃ f ∈ fields.filter Field.isComputed, f.name = k
  . exact .inr hcomputed
  . left
    obtain ⟨e, he, rfl⟩ := List.mem_map.mp hk
    refine List.mem_map.mpr ⟨e, List.mem_filter.mpr ⟨he, ?_⟩, rfl⟩
    simpa using hcomputed

namespace Records

variable {old payload : Entries}

theorem keys_subset_mergedData (h : mergedData fields old payload = .ok data) : old.keys ⊆ data.keys := by
  obtain ⟨accepted, haccepted, h⟩ := Outcome.bind_eq_ok.mp h
  calc old.keys
    _ ⊆ (old.overlay payload).keys := Entries.keys_subset_overlay old payload
    _ ⊆ accepted.keys := keys_subset_validate haccepted
    _ ⊆ data.keys := keys_subset_computeFields h

theorem get?_mergedData {k : String} (hpayload : k ∉ payload.keys) (hfields : k ∉ fields.map (·.name))
    (h : mergedData fields old payload = .ok data) : data.get? k = old.get? k := by
  have hne : ∀ f ∈ fields, f.name ≠ k := by simpa using hfields
  obtain ⟨accepted, haccepted, h⟩ := Outcome.bind_eq_ok.mp h
  rw [get?_computeFields_of_ne (fun f hf _ => hne f hf) h, get?_validate_of_ne hne haccepted,
    Entries.get?_overlay_of_not_mem hpayload]

end Records

end Fields
end TenantTables
