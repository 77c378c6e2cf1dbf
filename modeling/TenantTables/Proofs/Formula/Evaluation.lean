import TenantTables.Formula.Evaluation
import TenantTables.Proofs.Formula.Grammar
import TenantTables.Proofs.Storage.Writes
import TenantTables.Proofs.Text.Digit

namespace TenantTables

namespace Entries

theorem get_of_not_contains {es : Entries} {k : String} (h : es.contains k = false) : es.get k = .null := by
  rw [← isSome_get?, Option.isSome_eq_false_iff, Option.isNone_iff_eq_none] at h
  rw [get, h]
  rfl

/--
Entries that formulas cannot tell apart. They may only differ in which of the known fields are null and which
are absent.
-/
def SeenAlike (known : List String) (es es' : Entries) : Prop :=
  ∀ k, es.get k = es'.get k ∧ (k ∉ known → es.get? k = es'.get? k)

end Entries

namespace Formula

def terms : Formula → List Term
  | .term t => [t]
  | .add left right => left.terms ++ right.terms

theorem terms_sum (t : Term) (us : List Term) : (sum t us).terms = t :: us := by
  induction us using List.reverseRecOn with
  | nil => rfl
  | append_singleton us u ih =>
    rw [sum_concat, terms, ih]
    rfl

theorem terms_ne_nil (f : Formula) : f.terms ≠ [] := by
  induction f with
  | term t => exact List.cons_ne_nil t []
  | add left right ihl _ => exact List.append_ne_nil_of_left_ne_nil ihl right.terms

namespace Term

def unknown? (values : Entries) (known : List String) : Term → Option String
  | .field name => if values.contains name || known.contains name then none else some name
  | _ => none

def denote (values : Entries) : Term → Value
  | .text s => .text s
  | .whole n => .int n
  | .real x => .real x
  | .field name => values.get name

def IsShort (t : Term) : Prop :=
  ∀ n, t = .whole n → (Value.int n).isLong = false

theorem evaluate_eq (values : Entries) (known : List String) (t : Term) :
    t.evaluate values known =
      match t.unknown? values known with
      | some name => .error (.unknownField name)
      | none => .ok (t.denote values) := by
  cases t with
  | field name =>
    rw [evaluate, unknown?, denote]
    cases hget : values.get? name with
    | some v =>
      have hcontains : values.contains name = true := by rw [← Entries.isSome_get?, hget, Option.isSome_some]
      rw [hcontains, Bool.true_or, if_pos rfl, Entries.get, hget]
      rfl
    | none =>
      have hcontains : values.contains name = false := by rw [← Entries.isSome_get?, hget, Option.isSome_none]
      rw [hcontains, Bool.false_or, Entries.get_of_not_contains hcontains]
      cases known.contains name <;> rfl
  | _ => rfl

variable {values values' : Entries} {known : List String}

theorem denote_congr (h : values.SeenAlike known values') (t : Term) : t.denote values = t.denote values' := by
  cases t with
  | field name => exact (h name).1
  | _ => rfl

theorem unknown?_congr (h : ∀ k, k ∉ known → values.contains k = values'.contains k) (t : Term) :
    t.unknown? values known = t.unknown? values' known := by
  cases t with
  | field name =>
    rw [unknown?, unknown?]
    by_cases hname : name ∈ known
    . rw [List.contains_iff_mem.mpr hname, Bool.or_true, Bool.or_true]
    . rw [h name hname]
  | _ => rfl

theorem evaluate_congr (h : values.SeenAlike known values') (t : Term) :
    t.evaluate values known = t.evaluate values' known := by
  have hcontains : ∀ k, k ∉ known → values.contains k = values'.contains k :=
    fun k hk => Entries.contains_congr ((h k).2 hk)
  rw [evaluate_eq, evaluate_eq, unknown?_congr hcontains, denote_congr h]

end Term

theorem evaluate_congr {values values' : Entries} {known : List String} (h : values.SeenAlike known values')
    (f : Formula) : f.evaluate values known = f.evaluate values' known := by
  induction f with
  | term t => exact t.evaluate_congr h
  | add left right ihl ihr => rw [evaluate, evaluate, ihl, ihr]

section Reading

variable {position after : Nat} {cs rest : List Char} {t : Term} {f : Formula}

theorem isLong_of_length_le {n : Nat} (h : n < 10 ^ integerDigitLimit) : (Value.int n).isLong = false := by
  have hlength := (Nat.length_toDigits_le_iff (b := 10) (by decide) (by decide)).mpr h
  simpa [Value.isLong] using hlength

theorem isShort_of_read {n : Nat} (h : Token.read position cs = .ok (some (.term t, n, rest))) : t.IsShort := by
  rintro m rfl
  cases cs with
  | nil => simp [Token.read] at h
  | cons c cs =>
    unfold Token.read at h
    dsimp only at h
    split at h
    . split at h <;> simp at h
    . split at h
      . split at h
        . split at h
          . simp at h
          . next hlimit =>
            obtain ⟨rfl, -⟩ : Text.natOfDigits (Token.splitNumber (c :: cs)).1 = m ∧ _ := by simpa using h
            apply isLong_of_length_le
            calc Text.natOfDigits (Token.splitNumber (c :: cs)).1
              _ < 10 ^ (Token.splitNumber (c :: cs)).1.length := Text.natOfDigits_lt _
              _ ≤ 10 ^ integerDigitLimit := Nat.pow_le_pow_right (by decide) (Nat.not_lt.mp hlimit)
        . simp at h
      . split at h
        . simp at h
        . split at h <;> simp at h

theorem isShort_of_next {start : Nat} (h : Token.next position cs = .ok (some (.term t, start, after, rest))) :
    t.IsShort := by
  unfold Token.next at h
  dsimp only at h
  cases hread : Token.read (position + (cs.takeWhile Token.isGap).length) (cs.dropWhile Token.isGap) with
  | error e => simp [hread, Except.map] at h
  | ok found =>
    cases found with
    | none => simp [hread, Except.map] at h
    | some found =>
      obtain ⟨token, n, rest'⟩ := found
      obtain ⟨rfl, -⟩ : token = .term t ∧ _ := by simpa [hread, Except.map] using h
      exact isShort_of_read hread

theorem isShort_of_readTerm (h : readTerm position cs = .ok (t, after, rest)) : t.IsShort := by
  obtain ⟨found, hnext, h⟩ := Outcome.bind_eq_ok.mp h
  split at h
  . contradiction
  . cases h
    exact isShort_of_next hnext
  . contradiction

theorem exists_sum_of_readSum {us : List Term} {fuel : Nat} (h : readSum (sum t us) fuel position cs = .ok f) :
    ∃ more, f = sum t (us ++ more) ∧ ∀ u ∈ more, u.IsShort := by
  induction fuel generalizing us position cs with
  | zero => exact ⟨[], by rw [List.append_nil]; exact (Except.ok.inj h).symm, nofun⟩
  | succ fuel ih =>
    obtain ⟨found, hnext, h⟩ := Outcome.bind_eq_ok.mp h
    split at h
    . exact ⟨[], by rw [List.append_nil]; exact (Except.ok.inj h).symm, nofun⟩
    . obtain ⟨⟨u, after, rest⟩, hterm, h⟩ := Outcome.bind_eq_ok.mp h
      dsimp only at h
      rw [← sum_concat] at h
      obtain ⟨more, rfl, hmore⟩ := ih h
      refine ⟨u :: more, by rw [List.append_assoc]; rfl, ?_⟩
      exact List.forall_mem_cons.mpr ⟨isShort_of_readTerm hterm, hmore⟩
    . contradiction

theorem exists_sum_of_read {text : String} (h : read text = .ok f) :
    ∃ t us, f = sum t us ∧ ∀ u ∈ t :: us, u.IsShort := by
  obtain ⟨⟨t, after, rest⟩, hterm, h⟩ := Outcome.bind_eq_ok.mp h
  replace h : readSum (sum t []) (text.toList.length + 1) after rest = .ok f := h
  obtain ⟨us, rfl, hus⟩ := exists_sum_of_readSum h
  exact ⟨t, us, rfl, List.forall_mem_cons.mpr ⟨isShort_of_readTerm hterm, hus⟩⟩

end Reading

section Values

variable {values values' : Entries} {known : List String} {f : Formula} {t : Term}

theorem textOf_of_isLong {v : Value} (h : v.isLong = false) : textOf v = .ok v.asText := by
  rw [textOf, h]
  rfl

theorem Term.isLong_denote (h : t.IsShort) (hvalues : ∀ name, t = .field name → (values.get name).isLong = false) :
    (t.denote values).isLong = false := by
  cases t with
  | whole n => exact h n rfl
  | field name => exact hvalues name rfl
  | _ => rfl

def texts (values : Entries) (ts : List Term) : String :=
  String.join (ts.map fun t => (t.denote values).asText)

theorem texts_append (values : Entries) (ts us : List Term) :
    texts values (ts ++ us) = texts values ts ++ texts values us := by
  rw [texts, texts, texts, List.map_append, String.join_append]

def concat (values : Entries) : List Term → Value
  | [t] => t.denote values
  | ts => .text (texts values ts)

theorem concat_append {ts us : List Term} (hts : ts ≠ []) (hus : us ≠ []) :
    concat values (ts ++ us) = .text (texts values ts ++ texts values us) := by
  obtain ⟨t, ts, rfl⟩ := List.exists_cons_of_ne_nil hts
  obtain ⟨u, us, rfl⟩ := List.exists_cons_of_ne_nil hus
  rw [← texts_append]
  cases ts <;> rfl

theorem textOf_concat {ts : List Term} (hshort : ∀ t ∈ ts, (t.denote values).isLong = false) :
    textOf (concat values ts) = .ok (texts values ts) := by
  match ts with
  | [] => rfl
  | [t] =>
    rw [concat, textOf_of_isLong (hshort t List.mem_cons_self), texts, List.map_singleton]
    simp
  | t :: u :: ts => rfl

theorem evaluate_terms (known : List String) (hshort : ∀ t ∈ f.terms, (t.denote values).isLong = false) :
    f.evaluate values known =
      match f.terms.findSome? (·.unknown? values known) with
      | some name => .error (.unknownField name)
      | none => .ok (concat values f.terms) := by
  induction f with
  | term t =>
    rw [evaluate, t.evaluate_eq, terms, List.findSome?_singleton]
    rfl
  | add left right ihl ihr =>
    rw [terms, List.forall_mem_append] at hshort
    replace ihl := ihl hshort.1
    replace ihr := ihr hshort.2
    rw [evaluate, terms, List.findSome?_append, concat_append left.terms_ne_nil right.terms_ne_nil]
    cases hleft : left.terms.findSome? (·.unknown? values known) with
    | some name =>
      rw [hleft] at ihl
      rw [ihl]
      rfl
    | none =>
      rw [hleft] at ihl
      rw [ihl, Option.none_or]
      show (textOf (concat values left.terms) >>= _) = _
      rw [textOf_concat hshort.1]
      show (right.evaluate values known >>= _) = _
      cases hright : right.terms.findSome? (·.unknown? values known) with
      | some name =>
        rw [hright] at ihr
        rw [ihr]
        rfl
      | none =>
        rw [hright] at ihr
        rw [ihr]
        show (textOf (concat values right.terms) >>= _) = _
        rw [textOf_concat hshort.2]
        rfl

theorem isLong_concat {ts : List Term} (hshort : ∀ t ∈ ts, (t.denote values).isLong = false) :
    (concat values ts).isLong = false := by
  match ts with
  | [] => rfl
  | [t] => exact hshort t List.mem_cons_self
  | t :: u :: ts => rfl

theorem exists_evaluate_error_iff (hshort : ∀ t ∈ f.terms, (t.denote values).isLong = false) :
    (∃ e, f.evaluate values known = .error e) ↔ ∃ t ∈ f.terms, (t.unknown? values known).isSome = true := by
  rw [evaluate_terms known hshort, ← List.findSome?_isSome_iff]
  cases f.terms.findSome? (·.unknown? values known) with
  | none => simp
  | some name => simp

theorem isLong_denote_of_read {text : String} (hread : read text = .ok f)
    (hshort : ∀ name, .field name ∈ f.terms → (values.get name).isLong = false) :
    ∀ t ∈ f.terms, (t.denote values).isLong = false := by
  obtain ⟨t, us, rfl, hliterals⟩ := exists_sum_of_read hread
  rw [terms_sum] at hshort ⊢
  intro u hu
  exact Term.isLong_denote (hliterals u hu) fun name hname => hshort name (hname ▸ hu)

/--
The value of a formula is the text of all of its terms in order, or what its only term stands for, and it fails
at the first term that names no field.
-/
theorem evaluate_of_read {text : String} (hread : read text = .ok f) (values : Entries) (known : List String)
    (hshort : ∀ name, .field name ∈ f.terms → (values.get name).isLong = false) :
    (∃ t us, f = sum t us ∧ f.terms = t :: us) ∧
    (∀ e, f.evaluate values known = .error e ↔
      ∃ before t after name, f.terms = before ++ t :: after ∧ (∀ u ∈ before, u.unknown? values known = none) ∧
        t.unknown? values known = some name ∧ e = .unknownField name) ∧
    ((∀ t ∈ f.terms, t.unknown? values known = none) →
      (∀ t, f.terms = [t] → f.evaluate values known = .ok (t.denote values)) ∧
      (2 ≤ f.terms.length →
        f.evaluate values known = .ok (.text (String.join (f.terms.map fun t => (t.denote values).asText))))) := by
  have hvalue := evaluate_terms known (isLong_denote_of_read hread hshort)
  obtain ⟨t, us, rfl, -⟩ := exists_sum_of_read hread
  rw [terms_sum] at hvalue ⊢
  refine ⟨⟨t, us, rfl, rfl⟩, ?_, ?_⟩
  . intro e
    cases hfind : (t :: us).findSome? (·.unknown? values known) with
    | none =>
      rw [hfind] at hvalue
      rw [hvalue]
      rw [List.findSome?_eq_none_iff] at hfind
      constructor
      . intro h
        contradiction
      . rintro ⟨before, u, after, name, hterms, -, hunknown, -⟩
        rw [hfind u (hterms ▸ List.mem_append_right before List.mem_cons_self)] at hunknown
        contradiction
    | some name =>
      rw [hfind] at hvalue
      rw [hvalue]
      constructor
      . intro h
        obtain ⟨before, u, after, hterms, hunknown, hbefore⟩ := List.findSome?_eq_some_iff.mp hfind
        exact ⟨before, u, after, name, hterms, hbefore, hunknown, (Except.error.inj h).symm⟩
      . rintro ⟨before, u, after, name', hterms, hbefore, hunknown, rfl⟩
        rw [List.findSome?_eq_some_iff.mpr ⟨before, u, after, hterms, hunknown, hbefore⟩] at hfind
        rw [Option.some.inj hfind]
  . intro hknown
    rw [List.findSome?_eq_none_iff.mpr hknown] at hvalue
    constructor
    . intro u hu
      obtain ⟨rfl, rfl⟩ := List.cons.inj hu
      exact hvalue
    . intro htwo
      cases us with
      | nil => simp at htwo
      | cons u us => exact hvalue

theorem evaluate_of_read_of_name :
    let f := sum (.field "last") [.text ", ", .field "first", .field "n", .field "m"]
    let values : Entries := [("last", .text "Li"), ("n", .real (.ofInt 3))]
    read "last + ', ' + first + n + m" = .ok f ∧
    (∀ name, .field name ∈ f.terms → (values.get name).isLong = false) ∧
    f.evaluate values ["first", "m"] = .ok (.text "Li, 3") ∧
    f.evaluate values ["m"] = .error (.unknownField "first") := by
  intro f values
  have hread : read "last + ', ' + first + n + m" = .ok f := by decide +kernel
  have hterms : f.terms = [.field "last", .text ", ", .field "first", .field "n", .field "m"] := rfl
  have hshort : ∀ name, .field name ∈ f.terms → (values.get name).isLong = false := by
    intro name hname
    rw [hterms] at hname
    simp only [List.mem_cons, Term.field.injEq, reduceCtorEq, List.not_mem_nil, false_or, or_false] at hname
    rcases hname with rfl | rfl | rfl | rfl <;> decide
  refine ⟨hread, hshort, ?_, ?_⟩
  . obtain ⟨-, -, hvalue⟩ := evaluate_of_read hread values ["first", "m"] hshort
    rw [(hvalue (by decide)).2 (by decide)]
    decide +kernel
  . obtain ⟨-, hfails, -⟩ := evaluate_of_read hread values ["m"] hshort
    rw [hfails]
    exact ⟨[.field "last", .text ", "], .field "first", [.field "n", .field "m"], "first", rfl, by decide, by decide,
      rfl⟩

end Values

end Formula
end TenantTables
