import TenantTables.Proofs.Record.Check
import TenantTables.Proofs.Text.Space

namespace TenantTables

namespace Text

structure IsDigits (cs : List Char) : Prop where
  nonempty : cs ≠ []
  isDigit : ∀ c ∈ cs, Text.isDigit c = true

def IsLine (s : String) (cs : List Char) : Prop :=
  s.toList = cs ∨ s.toList = cs ++ ['\n']

structure IsWhole (s : String) (ds : List Char) : Prop where
  digits : IsDigits ds
  line : IsLine s ds

structure IsPointed (s : String) (ds fs : List Char) : Prop where
  whole : IsDigits ds
  fraction : IsDigits fs
  line : IsLine s (ds ++ '.' :: fs)

theorem takeWhile_of_isDigits {ds rest : List Char} (h : IsDigits ds)
    (hrest : ∀ c, rest.head? = some c → isDigit c = false) :
    (ds ++ rest).takeWhile isDigit = ds ∧ (ds ++ rest).dropWhile isDigit = rest :=
  takeWhile_append_of_head? h.isDigit hrest

theorem isDigits_takeWhile {cs : List Char} (h : (cs.takeWhile isDigit).isEmpty = false) :
    IsDigits (cs.takeWhile isDigit) where
  nonempty := List.isEmpty_eq_false_iff.mp h
  isDigit := List.all_eq_true.mp List.all_takeWhile

theorem isDigit_newline : isDigit '\n' = false := rfl

theorem isDigit_point : isDigit '.' = false := rfl

end Text

namespace Field

open Text

variable {s : String} {whole fraction : List Char}

theorem splitDigits?_of_isWhole (h : IsWhole s whole) : splitDigits? s = some (whole, []) := by
  have hsplit {rest : List Char} (hs : s.toList = whole ++ rest) (hrest : rest = [] ∨ rest = ['\n']) :
      splitDigits? s = some (whole, []) := by
    have hend : ∀ c, rest.head? = some c → isDigit c = false := by
      rcases hrest with rfl | rfl
      . nofun
      . rintro c ⟨⟩
        exact isDigit_newline
    obtain ⟨htake, hdrop⟩ := takeWhile_of_isDigits h.digits hend
    unfold splitDigits?
    rw [hs]
    dsimp only
    rw [htake, hdrop, if_neg (by simpa using h.digits.nonempty)]
    rcases hrest with rfl | rfl <;> rfl
  rcases h.line with hs | hs
  . exact hsplit (hs.trans (List.append_nil whole).symm) (.inl rfl)
  . exact hsplit hs (.inr rfl)

theorem splitDigits?_of_isPointed (h : IsPointed s whole fraction) :
    splitDigits? s = some (whole, fraction) := by
  have hsplit {rest : List Char} (hs : s.toList = whole ++ '.' :: (fraction ++ rest))
      (hrest : rest = [] ∨ rest = ['\n']) : splitDigits? s = some (whole, fraction) := by
    have hpoint : ∀ c, ('.' :: (fraction ++ rest)).head? = some c → isDigit c = false := by
      rintro c ⟨⟩
      exact isDigit_point
    have hend : ∀ c, rest.head? = some c → isDigit c = false := by
      rcases hrest with rfl | rfl
      . nofun
      . rintro c ⟨⟩
        exact isDigit_newline
    obtain ⟨htake, hdrop⟩ := takeWhile_of_isDigits h.whole hpoint
    obtain ⟨htake', hdrop'⟩ := takeWhile_of_isDigits h.fraction hend
    unfold splitDigits?
    rw [hs]
    dsimp only
    rw [htake, hdrop, if_neg (by simpa using h.whole.nonempty)]
    split
    . next hnil => cases hnil
    . next hreturn => cases hreturn
    . next more hmore =>
      obtain rfl := (List.cons.inj hmore).2
      rw [htake', hdrop', if_neg]
      rcases hrest with rfl | rfl <;> simp [h.fraction.nonempty]
    . next hother => exact absurd rfl (hother _)
  rcases h.line with hs | hs
  . exact hsplit (by rw [hs, List.append_nil]) (.inl rfl)
  . exact hsplit (by rw [hs, List.append_assoc, List.cons_append]) (.inr rfl)

theorem splitDigits?_eq_some (h : splitDigits? s = some (whole, fraction)) :
    (fraction = [] ∧ IsWhole s whole) ∨ IsPointed s whole fraction := by
  have hs : s.toList = s.toList.takeWhile isDigit ++ s.toList.dropWhile isDigit :=
    List.takeWhile_append_dropWhile.symm
  unfold splitDigits? at h
  dsimp only at h
  split at h
  . contradiction
  . next hwhole =>
    have hdigits := isDigits_takeWhile (Bool.eq_false_iff.mpr hwhole)
    split at h
    . next hrest =>
      rw [hrest, List.append_nil] at hs
      cases h
      exact .inl ⟨rfl, hdigits, .inl hs⟩
    . next hrest =>
      rw [hrest] at hs
      cases h
      exact .inl ⟨rfl, hdigits, .inr hs⟩
    . next more hrest =>
      split at h
      . contradiction
      . next hfraction =>
        rw [Bool.not_eq_true, Bool.or_eq_false_iff, Bool.not_eq_false', Bool.or_eq_true, beq_iff_eq,
          List.isEmpty_iff] at hfraction
        obtain ⟨hfraction, htail⟩ := hfraction
        have hmore : more = more.takeWhile isDigit ++ more.dropWhile isDigit :=
          List.takeWhile_append_dropWhile.symm
        rw [hrest] at hs
        cases h
        refine .inr ⟨hdigits, isDigits_takeWhile hfraction, ?_⟩
        rcases htail with htail | htail
        . rw [htail, List.append_nil] at hmore
          exact .inl (by rw [← hmore]; exact hs)
        . rw [htail] at hmore
          exact .inr (by rw [List.append_assoc, List.cons_append, ← hmore]; exact hs)
    . contradiction

end Field

open Text

/--
What a value denotes as a value of a type, in normal form. Relations and computed values are taken as they are.
-/
inductive FieldType.Denotes : FieldType → Value → Value → Prop
  | int (i : Int) : Denotes .number (.int i) (.int i)
  | real {x : Binary64} (h : x.isNan = false) : Denotes .number (.real x) (.real x)
  | whole {s : String} {digits : List Char} (h : IsWhole s digits) :
    Denotes .number (.text s) (.int (natOfDigits digits))
  | pointed {s : String} {whole fraction : List Char} (h : IsPointed s whole fraction) :
    Denotes .number (.text s) (.real (.ofPointDigits whole fraction))
  | bool (b : Bool) : Denotes .boolean (.bool b) (.bool b)
  | isTrue : Denotes .boolean (.text "true") (.bool true)
  | isFalse : Denotes .boolean (.text "false") (.bool false)
  | date (d : Date) : Denotes .date (.date d) (.text d.print)
  | moment (m : Moment) : Denotes .date (.moment m) (.text m.print)
  | iso {s : String} {m : Moment} (h : IsoReader.read (trim s) = .ok m) :
    Denotes .date (.text s) (.text (trim s))
  | text (s : String) : Denotes .text (.text s) (.text s)
  | relation (v : Value) : Denotes .relation v v
  | computed (v : Value) : Denotes .computed v v

def Value.IsMeasured (v : Value) : Prop :=
  ∀ s digits, v = .text s → IsWhole s digits → digits.length ≤ integerDigitLimit

theorem Value.isMeasured_text {s : String} (h : s.toList.length ≤ integerDigitLimit) :
    (Value.text s).IsMeasured := by
  rintro _ digits ⟨⟩ hwhole
  rcases hwhole.line with hs | hs
  . rwa [hs] at h
  . rw [hs, List.length_append] at h
    omega

namespace Field

variable {v n : Value}

theorem number?_of_denotes (hv : v.IsMeasured) (h : FieldType.number.Denotes v n) :
    number? v = .ok (some n) := by
  cases h with
  | int i => rfl
  | real hnan => simp [number?, hnan]
  | @whole s digits h =>
    have hlength := hv s digits rfl h
    rw [number?, splitDigits?_of_isWhole h]
    dsimp only
    rw [if_neg (by omega)]
  | @pointed s whole fraction h =>
    obtain ⟨c, cs, hcons⟩ := List.exists_cons_of_ne_nil h.fraction.nonempty
    rw [number?, splitDigits?_of_isPointed h, hcons]

theorem denotes_of_number? (h : number? v = .ok (some n)) : FieldType.number.Denotes v n := by
  unfold number? at h
  split at h
  . next i =>
    obtain rfl := Option.some.inj (Except.ok.inj h)
    exact .int i
  . next x =>
    cases hnan : x.isNan with
    | true => simp [hnan] at h
    | false =>
      obtain rfl : Value.real x = n := by simpa [hnan] using h
      exact .real hnan
  . next s =>
    split at h
    . simp at h
    . next whole hsplit =>
      split at h
      . simp at h
      . rcases splitDigits?_eq_some hsplit with ⟨-, hwhole⟩ | hpointed
        . obtain rfl := Option.some.inj (Except.ok.inj h)
          exact .whole hwhole
        . exact absurd rfl hpointed.fraction.nonempty
    . next whole fraction hne hsplit =>
      rcases splitDigits?_eq_some hsplit with ⟨rfl, -⟩ | hpointed
      . exact absurd rfl hne
      . obtain rfl := Option.some.inj (Except.ok.inj h)
        exact .pointed hpointed
  . simp at h

theorem number?_ne_error (hv : v.IsMeasured) (e : Failure) : number? v ≠ .error e := by
  intro h
  unfold number? at h
  split at h
  . simp at h
  . simp at h
  . next s =>
    split at h
    . simp at h
    . next whole hsplit =>
      split at h
      . next hlong =>
        rcases splitDigits?_eq_some hsplit with ⟨-, hwhole⟩ | hpointed
        . have hlength := hv s whole rfl hwhole
          omega
        . exact hpointed.fraction.nonempty rfl
      . simp at h
    . simp at h
  . simp at h

theorem number?_spec (hv : v.IsMeasured) :
    (∃ n, number? v = .ok (some n) ∧ ∀ n', FieldType.number.Denotes v n' ↔ n' = n) ∨
      (number? v = .ok none ∧ ∀ n, ¬ FieldType.number.Denotes v n) := by
  cases h : number? v with
  | error e => exact absurd h (number?_ne_error hv e)
  | ok o =>
    cases o with
    | none =>
      refine .inr ⟨rfl, ?_⟩
      intro n hn
      simp [number?_of_denotes hv hn] at h
    | some n =>
      refine .inl ⟨n, rfl, ?_⟩
      intro n'
      constructor
      . intro hn'
        simpa [number?_of_denotes hv hn'] using h
      . rintro rfl
        exact denotes_of_number? h

end Field
end TenantTables
