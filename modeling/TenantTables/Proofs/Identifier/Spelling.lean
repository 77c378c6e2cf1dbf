import Mathlib.Data.Nat.Digits.Lemmas
import TenantTables.Document.Rules
import TenantTables.Proofs.Identifier
import TenantTables.Proofs.Text.Digit

namespace TenantTables

namespace Identifier

inductive Erases (word : List Char) : List Char → List Char → Prop where
  | nil : Erases word [] []
  | word (h : cs = word ++ rest) (hrest : Erases word rest out) : Erases word cs out
  | keep (h : ¬word <+: c :: rest) (hrest : Erases word rest out) : Erases word (c :: rest) (c :: out)

inductive Grouped : List Char → List Nat → Prop where
  | nil : Grouped [] []
  | digit (h : hexDigit? c = some d) (hrest : Grouped cs ds) : Grouped (c :: cs) (d :: ds)
  | gap (h : hexDigit? c = some d) (hrest : Grouped cs ds) : Grouped ('_' :: c :: cs) (d :: ds)

def IsMark (mark : List Char) : Prop :=
  ∃ zero, Text.digit? zero = some 0 ∧ (mark = [zero, 'x'] ∨ mark = [zero, 'X'])

/--
A number in base 16: after a plus sign and the mark of the base, which both may be left out, at least one digit.
Only after the mark the digits may begin with an underscore.
-/
def IsNumeral (cs : List Char) (n : Nat) : Prop :=
  ∃ sign mark digits ds, cs = sign ++ mark ++ digits ∧ (sign = [] ∨ sign = ['+']) ∧
    (mark = [] ∧ digits.head? ≠ some '_' ∨ IsMark mark) ∧
    Grouped digits ds ∧ ds ≠ [] ∧ n = Nat.ofDigits 16 ds.reverse

def isBrace (c : Char) : Bool :=
  c = '\x7b' || c = '\x7d'

/--
Whether characters denote a number as an identifier. The words for the name of an identifier, braces at the ends
of what is left, and all hyphens fall away in this order. The remaining 32 characters are a number in base 16,
within white space other than the separators of information.
-/
def Denotes (cs : List Char) (n : Nat) : Prop :=
  ∃ rest unnamed bare core numeral,
    Erases "urn:".toList cs rest ∧ Erases "uuid:".toList rest unnamed ∧ Text.Trims isBrace unnamed bare ∧
    core = bare.filter (· ≠ '-') ∧ core.length = 32 ∧
    Text.Trims Text.isPlainSpace core numeral ∧ IsNumeral numeral n

def Spells (s : String) (n : Nat) : Prop :=
  ∃ stripped, Text.Trims Text.isSpace s.toList stripped ∧ Denotes stripped n

def IsWritten (s : String) : Prop :=
  ∃ groups : List (List Char), groups.map List.length = [8, 4, 4, 4, 12] ∧
    (∀ group ∈ groups, ∀ c ∈ group, Text.IsHex c) ∧ s.toList = List.intercalate ['-'] groups

section Erases

variable {word cs out out' : List Char}

theorem erases_go (hword : word ≠ []) {fuel : Nat} (hfuel : cs.length ≤ fuel) :
    Erases word cs (removeWord.go word fuel cs) := by
  induction fuel generalizing cs with
  | zero =>
    rw [List.eq_nil_of_length_eq_zero (Nat.le_zero.mp hfuel)]
    exact .nil
  | succ fuel ih =>
    cases cs with
    | nil => exact .nil
    | cons c cs =>
      rw [removeWord.go]
      split
      . next hprefix =>
        obtain ⟨rest, hrest⟩ := List.isPrefixOf_iff_prefix.mp hprefix
        have hlength := congrArg List.length hrest
        have hpos := List.length_pos_of_ne_nil hword
        rw [List.length_append] at hlength
        rw [← hrest, List.drop_left]
        exact .word rfl (ih (by omega))
      . next hprefix =>
        refine .keep (fun h => hprefix (List.isPrefixOf_iff_prefix.mpr h)) (ih ?_)
        exact Nat.le_of_succ_le_succ hfuel

theorem Erases.eq (hword : word ≠ []) (h : Erases word cs out) (h' : Erases word cs out') : out = out' := by
  induction h generalizing out' with
  | nil =>
    cases h' with
    | nil => rfl
    | word hcs _ => exact absurd (List.append_eq_nil_iff.mp hcs.symm).1 hword
  | word hcs _ ih =>
    cases h' with
    | nil => exact absurd (List.append_eq_nil_iff.mp hcs.symm).1 hword
    | word hcs' hrest' =>
      rw [hcs, List.append_cancel_left_eq] at hcs'
      exact ih (hcs' ▸ hrest')
    | keep hnot _ => exact absurd ⟨_, hcs.symm⟩ hnot
  | keep hnot _ ih =>
    cases h' with
    | word hcs' _ => exact absurd ⟨_, hcs'.symm⟩ hnot
    | keep _ hrest' => rw [ih hrest']

theorem removeWord_eq_iff (hword : word ≠ []) : removeWord word cs = out ↔ Erases word cs out := by
  have herases : Erases word cs (removeWord word cs) := erases_go hword (Nat.le_refl _)
  exact ⟨fun h => h ▸ herases, fun h => herases.eq hword h⟩

end Erases

section Digits

variable {c : Char} {d acc n : Nat} {cs : List Char} {ds : List Nat}

theorem hexDigit?_lt (h : hexDigit? c = some d) : d < 16 := by
  have hle {a b : Char} (h : a ≤ b) : a.toNat ≤ b.toNat := UInt32.le_iff_toNat_le.mp h
  unfold hexDigit? at h
  split at h
  . next hc =>
    have hhigh : c.toNat ≤ 'f'.toNat := hle hc.2
    have hfirst : 'f'.toNat = 'a'.toNat + 5 := rfl
    rw [Option.some.injEq] at h
    omega
  . split at h
    . next hc =>
      have hhigh : c.toNat ≤ 'F'.toNat := hle hc.2
      have hfirst : 'F'.toNat = 'A'.toNat + 5 := rfl
      rw [Option.some.injEq] at h
      omega
    . exact Nat.lt_trans (Text.digit?_lt_ten h) (by decide)

theorem readGrouped?_eq_some_iff : readGrouped? acc cs = some n ↔
    ∃ ds, Grouped cs ds ∧ n = ds.foldl (fun n d => 16 * n + d) acc := by
  constructor
  . intro h
    induction acc, cs using readGrouped?.induct with
    | case1 acc => exact ⟨[], .nil, (Option.some.inj h).symm⟩
    | case2 acc c cs ih =>
      rw [readGrouped?] at h
      obtain ⟨d, hd, h⟩ := Option.bind_eq_some_iff.mp h
      obtain ⟨ds, hds, rfl⟩ := ih d h
      exact ⟨d :: ds, .gap hd hds, rfl⟩
    | case3 acc c cs hgap ih =>
      rw [readGrouped?.eq_3 _ _ _ hgap] at h
      obtain ⟨d, hd, h⟩ := Option.bind_eq_some_iff.mp h
      obtain ⟨ds, hds, rfl⟩ := ih d h
      exact ⟨d :: ds, .digit hd hds, rfl⟩
  . rintro ⟨ds, hds, rfl⟩
    induction hds generalizing acc with
    | nil => rfl
    | digit hd hrest ih =>
      rw [readGrouped?.eq_3 _ _ _ ?_, hd, Option.bind_some, ih]
      . rfl
      . rintro _ _ rfl
        cases hd
    | gap hd hrest ih =>
      rw [readGrouped?, hd, Option.bind_some, ih]
      rfl

theorem Grouped.digits_lt (h : Grouped cs ds) : ∀ d ∈ ds, d < 16 := by
  induction h with
  | nil => simp
  | digit hd _ ih | gap hd _ ih => exact List.forall_mem_cons.mpr ⟨hexDigit?_lt hd, ih⟩

theorem Grouped.length_le (h : Grouped cs ds) : ds.length ≤ cs.length := by
  induction h with
  | nil => exact Nat.le_refl 0
  | digit _ _ ih => exact Nat.succ_le_succ ih
  | gap _ _ ih => exact Nat.le_succ_of_le (Nat.succ_le_succ ih)

theorem foldl_eq_ofDigits (ds : List Nat) : ds.foldl (fun n d => 16 * n + d) 0 = Nat.ofDigits 16 ds.reverse := by
  rw [Nat.ofDigits_eq_foldr, List.foldr_reverse]
  simp [Nat.add_comm]

theorem IsNumeral.lt (h : IsNumeral cs n) : n < 16 ^ cs.length := by
  obtain ⟨sign, mark, digits, ds, rfl, -, -, hds, -, rfl⟩ := h
  calc
    Nat.ofDigits 16 ds.reverse < 16 ^ ds.reverse.length :=
      Nat.ofDigits_lt_base_pow_length (by decide) fun d hd => hds.digits_lt d (List.mem_reverse.mp hd)
    _ ≤ 16 ^ (sign ++ mark ++ digits).length := by
      apply Nat.pow_le_pow_right (by decide)
      have hle := hds.length_le
      simp
      omega

theorem grouped_iff_readGrouped? :
    (∃ ds, Grouped cs ds ∧ ds ≠ [] ∧ n = Nat.ofDigits 16 ds.reverse) ↔ cs ≠ [] ∧ readGrouped? 0 cs = some n := by
  simp only [readGrouped?_eq_some_iff, foldl_eq_ofDigits]
  constructor
  . rintro ⟨ds, hds, hne, hn⟩
    refine ⟨?_, ds, hds, hn⟩
    rintro rfl
    cases hds
    exact hne rfl
  . rintro ⟨hne, ds, hds, hn⟩
    refine ⟨ds, hds, ?_, hn⟩
    rintro rfl
    cases hds
    exact hne rfl

end Digits

section Number

variable {n : Nat} {cs : List Char}

def unsigned (cs : List Char) : List Char :=
  match cs with
  | '+' :: rest => rest
  | _ => cs

def unmarked (cs : List Char) : Bool × List Char :=
  match cs with
  | zero :: x :: rest =>
    if Text.digit? zero = some 0 ∧ (x = 'x' ∨ x = 'X') then (true, rest) else (false, cs)
  | _ => (false, cs)

def readDigits? (marked : Bool) (cs : List Char) : Option Nat :=
  match cs with
  | [] => none
  | '_' :: _ :: _ => if marked then readGrouped? 0 cs else none
  | _ => readGrouped? 0 cs

theorem readNumber?_eq (cs : List Char) : readNumber? cs =
    readDigits? (unmarked (unsigned (Text.trimBy Text.isPlainSpace cs))).1
      (unmarked (unsigned (Text.trimBy Text.isPlainSpace cs))).2 := by
  rfl

theorem readDigits?_eq_some_iff {marked : Bool} : readDigits? marked cs = some n ↔
    (marked = false → cs.head? ≠ some '_') ∧ ∃ ds, Grouped cs ds ∧ ds ≠ [] ∧ n = Nat.ofDigits 16 ds.reverse := by
  rw [grouped_iff_readGrouped?]
  unfold readDigits?
  split
  . simp
  . cases marked <;> simp
  . next hne hgap =>
    rw [and_iff_right hne, iff_and_self]
    rintro h - hhead
    obtain ⟨cs, rfl⟩ := List.head?_eq_some_iff.mp hhead
    cases cs with
    | nil => cases h
    | cons c cs => exact hgap c cs rfl

theorem exists_sign (cs : List Char) : ∃ sign, (sign = [] ∨ sign = ['+']) ∧ cs = sign ++ unsigned cs := by
  unfold unsigned
  split
  . exact ⟨['+'], .inr rfl, rfl⟩
  . exact ⟨[], .inl rfl, rfl⟩

theorem exists_mark (cs : List Char) : ∃ mark, cs = mark ++ (unmarked cs).2 ∧
    (mark = [] ∧ (unmarked cs).1 = false ∨ IsMark mark ∧ (unmarked cs).1 = true) := by
  unfold unmarked
  split
  . split
    . next zero x rest hmark =>
      obtain ⟨hzero, hx⟩ := hmark
      refine ⟨[zero, x], rfl, .inr ⟨⟨zero, hzero, ?_⟩, rfl⟩⟩
      rcases hx with rfl | rfl
      . exact .inl rfl
      . exact .inr rfl
    . exact ⟨[], rfl, .inl ⟨rfl, rfl⟩⟩
  . exact ⟨[], rfl, .inl ⟨rfl, rfl⟩⟩

theorem unsigned_of_head? (h : cs.head? ≠ some '+') : unsigned cs = cs := by
  unfold unsigned
  split
  . exact absurd rfl h
  . rfl

theorem Grouped.head?_ne {ds : List Nat} (h : Grouped cs ds) : cs.head? ≠ some '+' := by
  cases h with
  | digit hd _ =>
    rintro ⟨⟩
    cases hd
  | _ => simp

theorem IsMark.head?_ne {mark : List Char} (h : IsMark mark) (digits : List Char) :
    (mark ++ digits).head? ≠ some '+' := by
  obtain ⟨zero, hzero, rfl | rfl⟩ := h
  all_goals
    rintro ⟨⟩
    cases hzero

theorem IsMark.unmarked_eq {mark : List Char} (h : IsMark mark) (digits : List Char) :
    unmarked (mark ++ digits) = (true, digits) := by
  obtain ⟨zero, hzero, rfl | rfl⟩ := h
  . exact if_pos ⟨hzero, .inl rfl⟩
  . exact if_pos ⟨hzero, .inr rfl⟩

theorem Grouped.unmarked_eq {ds : List Nat} (h : Grouped cs ds) : unmarked cs = (false, cs) := by
  unfold unmarked
  split
  . next zero x rest =>
    refine if_neg ?_
    rintro ⟨hzero, hx⟩
    -- neither letter of the mark is a digit, and an underscore is no zero
    cases h with
    | digit _ hrest =>
      rcases hx with rfl | rfl
      all_goals
        cases hrest with
        | digit hx _ => cases hx
    | gap _ _ => cases hzero
  . rfl

theorem isNumeral_iff : IsNumeral cs n ↔
    readDigits? (unmarked (unsigned cs)).1 (unmarked (unsigned cs)).2 = some n := by
  rw [readDigits?_eq_some_iff]
  constructor
  . intro h
    obtain ⟨sign, mark, digits, ds, rfl, hsign, hmark, hds, hne, hn⟩ := h
    have hunsigned : unsigned (sign ++ mark ++ digits) = mark ++ digits := by
      rcases hsign with rfl | rfl
      . rw [List.nil_append]
        apply unsigned_of_head?
        rcases hmark with ⟨rfl, -⟩ | hmark
        . exact hds.head?_ne
        . exact hmark.head?_ne digits
      . rfl
    rw [hunsigned]
    rcases hmark with ⟨rfl, hhead⟩ | hmark
    . rw [List.nil_append, hds.unmarked_eq]
      exact ⟨fun _ => hhead, ds, hds, hne, hn⟩
    . rw [hmark.unmarked_eq]
      exact ⟨nofun, ds, hds, hne, hn⟩
  . rintro ⟨hhead, ds, hds, hne, hn⟩
    obtain ⟨sign, hsign, hcs⟩ := exists_sign cs
    obtain ⟨mark, hrest, hmark⟩ := exists_mark (unsigned cs)
    refine ⟨sign, mark, _, ds, ?_, hsign, ?_, hds, hne, hn⟩
    . rw [List.append_assoc, ← hrest, ← hcs]
    . exact hmark.imp (fun h => ⟨h.1, hhead h.2⟩) (·.1)

theorem readNumber?_eq_some_iff :
    readNumber? cs = some n ↔ ∃ numeral, Text.Trims Text.isPlainSpace cs numeral ∧ IsNumeral numeral n := by
  rw [readNumber?_eq, ← isNumeral_iff]
  constructor
  . exact fun h => ⟨_, Text.trims_trimBy _ _, h⟩
  . rintro ⟨numeral, htrims, h⟩
    rwa [htrims.eq]

end Number

theorem read_eq_ok_iff {s : String} {n : Nat} : read s = .ok n ↔ Spells s n := by
  constructor
  . intro h
    unfold read at h
    dsimp only at h
    split at h
    . cases h
    . next hlength =>
      split at h
      . next m hm =>
        obtain rfl : m = n := Except.ok.inj h
        obtain ⟨numeral, htrims, hnumeral⟩ := readNumber?_eq_some_iff.mp hm
        exact ⟨_, Text.trims_trimBy _ _, _, _, _, _, numeral, (removeWord_eq_iff (by decide)).mp rfl,
          (removeWord_eq_iff (by decide)).mp rfl, Text.trims_trimBy isBrace _, rfl, not_not.mp hlength, htrims,
          hnumeral⟩
      . cases h
  . rintro ⟨stripped, hspace, rest, unnamed, bare, core, numeral, hurn, huuid, hbraces, hcore, hlength, htrims,
      hnumeral⟩
    have hbare : Text.trimBy (fun c => decide (c = '\x7b') || decide (c = '\x7d')) unnamed = bare := hbraces.eq
    unfold read
    dsimp only
    rw [Text.trimChars, hspace.eq, (removeWord_eq_iff (by decide)).mpr hurn,
      (removeWord_eq_iff (by decide)).mpr huuid, hbare, ← hcore, if_neg (not_not.mpr hlength),
      readNumber?_eq_some_iff.mpr ⟨numeral, htrims, hnumeral⟩]

theorem Spells.lt {s : String} {n : Nat} (h : Spells s n) : n < 2 ^ 128 := by
  obtain ⟨_, -, _, _, _, core, numeral, -, -, -, -, hlength, htrims, hnumeral⟩ := h
  obtain ⟨front, back, hcore, -, -⟩ := htrims.ends
  have hle : numeral.length ≤ 32 := by
    rw [← hlength, hcore, List.length_append, List.length_append]
    omega
  calc
    n < 16 ^ numeral.length := hnumeral.lt
    _ ≤ 16 ^ 32 := Nat.pow_le_pow_right (by decide) hle
    _ = 2 ^ 128 := by decide

theorem print_inj {m n : Nat} (hm : m < 2 ^ 128) (hn : n < 2 ^ 128) (h : print m = print n) : m = n := by
  have hread := read_printed m
  rw [h, read_printed, Except.ok.injEq] at hread
  omega

theorem isWritten_print (n : Nat) : IsWritten (print n) := by
  refine ⟨_, ?_, ?_, String.toList_ofList⟩
  . simp [Text.length_hexDigits]
  . have hgroup (start length : Nat) : ∀ c ∈ ((Text.hexDigits 32 n).drop start).take length, Text.IsHex c :=
      fun c hc => Text.isHex_of_mem_hexDigits (List.mem_of_mem_drop (List.mem_of_mem_take hc))
    simp only [List.forall_mem_cons]
    exact ⟨hgroup 0 8, hgroup 8 4, hgroup 12 4, hgroup 16 4, hgroup 20 12, nofun⟩

theorem IsWritten.length_eq {s : String} (h : IsWritten s) : s.length = 36 := by
  obtain ⟨groups, hlengths, -, hs⟩ := h
  obtain ⟨a, _, rfl, ha, hlengths⟩ := List.map_eq_cons_iff.mp hlengths
  obtain ⟨b, _, rfl, hb, hlengths⟩ := List.map_eq_cons_iff.mp hlengths
  obtain ⟨c, _, rfl, hc, hlengths⟩ := List.map_eq_cons_iff.mp hlengths
  obtain ⟨d, _, rfl, hd, hlengths⟩ := List.map_eq_cons_iff.mp hlengths
  obtain ⟨e, _, rfl, he, hlengths⟩ := List.map_eq_cons_iff.mp hlengths
  rw [← String.length_toList, hs, List.map_eq_nil_iff.mp hlengths]
  simp [List.intercalate, ha, hb, hc, hd, he]

open Document in
theorem identifier_eq_ok_iff {s t : String} :
    Ruling.identifier (.text s) = .ok t ↔ ∃ n, Spells s n ∧ t = print n := by
  simp only [← read_eq_ok_iff]
  rw [Ruling.identifier, normalize]
  cases read s with
  | error fault => simp [Except.map]
  | ok n => simp [Except.map, eq_comm]

open Document in
theorem identifier_eq_error {s : String} (h : ∀ n, ¬Spells s n) :
    ∃ fault : Fault, Ruling.identifier (.text s) = .error (.reason fault.message) := by
  simp only [← read_eq_ok_iff] at h
  rw [Ruling.identifier, normalize]
  cases hread : read s with
  | error fault => exact ⟨fault, rfl⟩
  | ok n => exact absurd hread (h n)

open Document in
/--
What is no spelling of a number is refused. A spelling is brought to a written form, which spells the same number
and is what all spellings of this number, itself among them, are brought to.
-/
theorem one_spelling (s : String) :
    (∀ t, Ruling.identifier (.text s) = .ok t → IsWritten t ∧ t.length = 36 ∧
      Ruling.identifier (.text t) = .ok t ∧
      ∃ n < 2 ^ 128, Spells s n ∧ Spells t n ∧ ∀ s', Ruling.identifier (.text s') = .ok t ↔ Spells s' n) ∧
    (∀ n, Spells s n → ∃ t, Ruling.identifier (.text s) = .ok t) ∧
    ((∀ n, ¬Spells s n) → ∃ fault : Fault, Ruling.identifier (.text s) = .error (.reason fault.message)) := by
  refine ⟨fun t ht => ?_, fun n hn => ⟨_, identifier_eq_ok_iff.mpr ⟨n, hn, rfl⟩⟩, identifier_eq_error⟩
  obtain ⟨n, hn, rfl⟩ := identifier_eq_ok_iff.mp ht
  have hprinted : Spells (print n) n := by
    rw [← read_eq_ok_iff, read_printed, Nat.mod_eq_of_lt (hn.lt.trans_eq (by decide))]
  refine ⟨isWritten_print n, (isWritten_print n).length_eq, identifier_eq_ok_iff.mpr ⟨n, hprinted, rfl⟩, n, hn.lt,
    hn, hprinted, fun s' => ?_⟩
  rw [identifier_eq_ok_iff]
  constructor
  . rintro ⟨m, hm, hprint⟩
    rwa [print_inj hn.lt hm.lt hprint]
  . exact fun hs' => ⟨n, hs', rfl⟩

open Document in
theorem one_spelling_of_marked :
    let s := "\n\x7burn:uuid:\u0660X_-9abcdef0-12345678-9ABCDEF0-12345\x7d\t"
    let t := "0009abcd-ef01-2345-6789-abcdef012345"
    Ruling.identifier (.text s) = .ok t ∧ IsWritten t ∧ Ruling.identifier (.text t) = .ok t ∧
      ∃ n < 2 ^ 128, Spells s n ∧ Spells t n := by
  intro s t
  have hs : Ruling.identifier (.text s) = .ok t := by decide +kernel
  obtain ⟨hwritten, -, ht, n, hlt, hsn, htn, -⟩ := (one_spelling s).1 t hs
  exact ⟨hs, hwritten, ht, n, hlt, hsn, htn⟩

end Identifier
end TenantTables
