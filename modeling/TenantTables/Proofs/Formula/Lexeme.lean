import Mathlib.Data.List.Basic
import TenantTables.Formula.Token
import TenantTables.Proofs.Text.Space

/-!
This module contains how a formula is written: which words its tokens have, and how a text is cut into
tokens. At each position the kinds of tokens are tried in order, and the longest word of the kind is
taken.
-/

namespace TenantTables.Formula

open Token

inductive Kind where
  | text
  | number
  | name
  | plus

def Kind.rank : Kind → Nat
  | .text => 0
  | .number => 1
  | .name => 2
  | .plus => 3

/--
What may stand between two marks, and the text that it is written for. A backslash takes the character
after it as it is, but a newline.
-/
inductive Quoted (mark : Char) : List Char → List Char → Prop where
  | nil : Quoted mark [] []
  | plain {c : Char} {word s : List Char} :
    c ≠ mark → c ≠ '\\' → Quoted mark word s → Quoted mark (c :: word) (c :: s)
  | escaped {c : Char} {word s : List Char} :
    c ≠ '\n' → Quoted mark word s → Quoted mark ('\\' :: c :: word) (c :: s)

inductive Spells : Kind → List Char → Token → Prop where
  | text {mark : Char} {word s : List Char} :
    mark = '"' ∨ mark = '\'' → Quoted mark word s →
      Spells .text (mark :: (word ++ [mark])) (.term (.text (String.ofList s)))
  | whole {ds : List Char} :
    ds ≠ [] → (∀ d ∈ ds, Text.isDigit d = true) →
      Spells .number ds (.term (.whole (Text.natOfDigits ds)))
  | real {ds fs : List Char} :
    ds ≠ [] → (∀ d ∈ ds, Text.isDigit d = true) → fs ≠ [] → (∀ d ∈ fs, Text.isDigit d = true) →
      Spells .number (ds ++ '.' :: fs) (.term (.real (Binary64.ofPointDigits ds fs)))
  | name {c : Char} {cs : List Char} :
    isNameStart c = true → (∀ d ∈ cs, isNameChar d = true) →
      Spells .name (c :: cs) (.term (.field (String.ofList (c :: cs))))
  | plus : Spells .plus ['+'] .plus

/--
The token at the start of a text: no kind before its own has a word there, and its word is the longest.
-/
structure StartsWith (cs : List Char) (k : Kind) (word : List Char) (t : Token) : Prop where
  starts : word <+: cs
  spells : Spells k word t
  longest : ∀ word' t', word' <+: cs → Spells k word' t' → word'.length ≤ word.length
  first : ∀ k' word' t', word' <+: cs → Spells k' word' t' → k.rank ≤ k'.rank

structure Lexeme where
  word : List Char
  token : Token
  position : Nat

def Lexeme.IsShort (l : Lexeme) : Prop :=
  ∀ n, l.token = .term (.whole n) → l.word.length ≤ integerDigitLimit

/--
The tokens of a text from a position on, up to the end of the text or the first character at which no
token starts. That character and its position come last.
-/
inductive Lexed : Nat → List Char → List Lexeme → Option (Char × Nat) → Prop where
  | ended {position : Nat} : Lexed position [] [] none
  | stuck {position : Nat} {c : Char} {cs : List Char} :
    isGap c = false → (∀ k word t, word <+: c :: cs → ¬ Spells k word t) →
      Lexed position (c :: cs) [] (some (c, position))
  | gap {position : Nat} {c : Char} {cs : List Char} {ls : List Lexeme} {stuck : Option (Char × Nat)} :
    isGap c = true → Lexed (position + 1) cs ls stuck → Lexed position (c :: cs) ls stuck
  | token {position : Nat} {k : Kind} {word rest : List Char} {t : Token} {ls : List Lexeme}
      {stuck : Option (Char × Nat)} :
    StartsWith (word ++ rest) k word t → Lexed (position + word.length) rest ls stuck →
      Lexed position (word ++ rest) (⟨word, t, position⟩ :: ls) stuck

section Kinds

theorem toNat_of_isDigit {c : Char} (h : Text.isDigit c = true) :
    48 ≤ c.toNat ∧ c.toNat ≤ 57 ∨ 128 ≤ c.toNat := by
  rw [Text.isDigit, Text.digit?] at h
  split at h
  . split at h
    . next hdigit => exact .inl (Char.isDigit_iff_toNat.mp hdigit)
    . contradiction
  . omega

theorem toNat_of_isNameStart {c : Char} (h : isNameStart c = true) :
    65 ≤ c.toNat ∧ c.toNat ≤ 122 := by
  have halpha : c.isAlpha = (decide ('A'.val ≤ c.val ∧ c.val ≤ 'Z'.val) ||
      (decide ('a'.val ≤ c.val) && decide (c.val ≤ 'z'.val))) := rfl
  simp only [isNameStart, halpha, Bool.or_eq_true, Bool.and_eq_true, decide_eq_true_eq,
    UInt32.le_iff_toNat_le] at h
  rcases h with (⟨hlow, hhigh⟩ | ⟨hlow, hhigh⟩) | rfl
  . exact ⟨hlow, Nat.le_trans hhigh (by decide)⟩
  . exact ⟨Nat.le_trans (by decide) hlow, hhigh⟩
  . decide

def kind? (c : Char) : Option Kind :=
  if c = '"' ∨ c = '\'' then some .text
  else if Text.isDigit c then some .number
  else if isNameStart c then some .name
  else if c = '+' then some .plus
  else none

theorem not_mark_of_isDigit {c : Char} (h : Text.isDigit c = true) : ¬ (c = '"' ∨ c = '\'') := by
  rintro (rfl | rfl) <;> contradiction

theorem not_mark_of_isNameStart {c : Char} (h : isNameStart c = true) :
    ¬ (c = '"' ∨ c = '\'') := by
  rintro (rfl | rfl) <;> contradiction

theorem not_isDigit_of_isNameStart {c : Char} (h : isNameStart c = true) : ¬ Text.isDigit c = true := by
  intro hdigit
  have hlow := toNat_of_isDigit hdigit
  have hhigh := toNat_of_isNameStart h
  omega

theorem kind?_of_isDigit {c : Char} (h : Text.isDigit c = true) : kind? c = some .number := by
  rw [kind?, if_neg (not_mark_of_isDigit h), if_pos h]

theorem kind?_of_isNameStart {c : Char} (h : isNameStart c = true) : kind? c = some .name := by
  rw [kind?, if_neg (not_mark_of_isNameStart h), if_neg (not_isDigit_of_isNameStart h), if_pos h]

theorem Spells.kind?_eq {k : Kind} {word : List Char} {t : Token} (h : Spells k word t) :
    ∃ c cs, word = c :: cs ∧ kind? c = some k := by
  cases h with
  | text hmark _ => exact ⟨_, _, rfl, if_pos hmark⟩
  | whole hne hall =>
    obtain ⟨d, ds, rfl⟩ := List.exists_cons_of_ne_nil hne
    exact ⟨d, ds, rfl, kind?_of_isDigit (hall d List.mem_cons_self)⟩
  | real hne hall _ _ =>
    obtain ⟨d, ds, rfl⟩ := List.exists_cons_of_ne_nil hne
    exact ⟨d, _, rfl, kind?_of_isDigit (hall d List.mem_cons_self)⟩
  | name hc _ => exact ⟨_, _, rfl, kind?_of_isNameStart hc⟩
  | plus => exact ⟨_, _, rfl, rfl⟩

theorem Spells.kind_eq {k k' : Kind} {cs word word' : List Char} {t t' : Token} (h : Spells k word t)
    (hpre : word <+: cs) (h' : Spells k' word' t') (hpre' : word' <+: cs) : k = k' := by
  obtain ⟨c, rest, rfl, hc⟩ := h.kind?_eq
  obtain ⟨c', rest', rfl, hc'⟩ := h'.kind?_eq
  obtain ⟨tail, rfl⟩ := hpre
  have heq : c' = c := (List.cons_prefix_cons.mp hpre').1
  rw [heq, hc, Option.some.injEq] at hc'
  exact hc'

theorem exists_startsWith {k : Kind} {cs word : List Char} {t : Token} (hpre : word <+: cs)
    (h : Spells k word t) : ∃ word t, StartsWith cs k word t := by
  by_cases hlongest : ∀ word' t', word' <+: cs → Spells k word' t' → word'.length ≤ word.length
  . have hfirst : ∀ k' word' t', word' <+: cs → Spells k' word' t' → k.rank ≤ k'.rank := by
      intro k' word' t' hpre' h'
      exact Nat.le_of_eq (congrArg Kind.rank (h.kind_eq hpre h' hpre'))
    exact ⟨word, t, hpre, h, hlongest, hfirst⟩
  . simp only [not_forall, Nat.not_le] at hlongest
    obtain ⟨word', t', hpre', h', hlt⟩ := hlongest
    exact exists_startsWith hpre' h'
-- a longer word leaves less of the text
termination_by cs.length - word.length
decreasing_by
  have := hpre'.length_le
  omega

end Kinds

section Mark

variable {mark c : Char} {cs word rest s : List Char} {n : Nat}

theorem readQuoted?_cons (hback : c ≠ '\\') : readQuoted? mark (c :: cs) =
    if c = mark then some ([], 1, cs)
    else (readQuoted? mark cs).map fun (s, n, rest) => (c :: s, n + 1, rest) :=
  readQuoted?.eq_4 mark c cs (fun h _ => hback h) fun _ _ h _ => hback h

theorem Quoted.readQuoted?_eq (hmark : mark ≠ '\\') (h : Quoted mark word s) :
    readQuoted? mark (word ++ mark :: rest) = some (s, word.length + 1, rest) := by
  induction h with
  | nil => rw [List.nil_append, readQuoted?_cons hmark, if_pos rfl, List.length_nil]
  | plain hc hback _ ih =>
    rw [List.cons_append, readQuoted?_cons hback, if_neg hc, ih]
    rfl
  | escaped hc _ ih =>
    rw [List.cons_append, List.cons_append, readQuoted?, if_neg hc, ih]
    rfl

theorem quoted_of_readQuoted? (h : readQuoted? mark cs = some (s, n, rest)) :
    ∃ word, Quoted mark word s ∧ cs = word ++ mark :: rest := by
  induction cs using readQuoted?.induct mark generalizing s n with
  | case1 => contradiction
  | case2 => contradiction
  | case3 cs => simp [readQuoted?] at h
  | case4 c cs hc ih =>
    rw [readQuoted?, if_neg hc, Option.map_eq_some_iff] at h
    obtain ⟨⟨s, n, rest⟩, hread, heq⟩ := h
    cases heq
    obtain ⟨word, hword, rfl⟩ := ih hread
    exact ⟨_, .escaped hc hword, rfl⟩
  | case5 cs h₁ h₂ =>
    rw [readQuoted?.eq_4 mark mark cs h₁ h₂, if_pos rfl, Option.some.injEq] at h
    cases h
    exact ⟨_, .nil, rfl⟩
  | case6 c cs h₁ h₂ hc ih =>
    rw [readQuoted?.eq_4 mark c cs h₁ h₂, if_neg hc, Option.map_eq_some_iff] at h
    obtain ⟨⟨s, n, rest⟩, hread, heq⟩ := h
    cases heq
    obtain ⟨word, hword, rfl⟩ := ih hread
    have hback : c ≠ '\\' := by
      intro hback
      cases hcs : word ++ mark :: rest with
      | nil => exact h₁ hback hcs
      | cons c' cs' => exact h₂ c' cs' hback hcs
    exact ⟨_, .plain hc hback hword, rfl⟩

end Mark

section Number

variable {ds fs rest : List Char}

theorem splitNumber_whole (hds : ∀ d ∈ ds, Text.isDigit d = true)
    (hrest : ∀ c, rest.head? = some c → Text.isDigit c = false)
    (hpoint : ∀ c more, rest = '.' :: c :: more → Text.isDigit c = false) :
    splitNumber (ds ++ rest) = (ds, [], rest) := by
  obtain ⟨htake, hdrop⟩ := Text.takeWhile_append_of_head? hds hrest
  rw [splitNumber, htake, hdrop]
  split
  . next more =>
    have hnone : more.takeWhile Text.isDigit = [] := by
      cases more with
      | nil => rfl
      | cons c more => simp [hpoint c more rfl]
    simp [hnone]
  . rfl

theorem splitNumber_real (hds : ∀ d ∈ ds, Text.isDigit d = true) (hne : fs ≠ [])
    (hfs : ∀ d ∈ fs, Text.isDigit d = true)
    (hrest : ∀ c, rest.head? = some c → Text.isDigit c = false) :
    splitNumber (ds ++ '.' :: (fs ++ rest)) = (ds, fs, rest) := by
  have hpoint : ∀ c, ('.' :: (fs ++ rest)).head? = some c → Text.isDigit c = false := by
    intro c hc
    cases hc
    rfl
  obtain ⟨htake, hdrop⟩ := Text.takeWhile_append_of_head? hds hpoint
  obtain ⟨htake', hdrop'⟩ := Text.takeWhile_append_of_head? hfs hrest
  have hempty : fs.isEmpty = false := by simpa using hne
  simp only [splitNumber, htake, hdrop, htake', hdrop', hempty]
  rfl

end Number

section Read

variable {position : Nat} {k : Kind} {c : Char} {cs word rest : List Char} {t : Token}

theorem StartsWith.not_spells {tail : List Char} {t' : Token} (more : List Char)
    (h : StartsWith (word ++ (more ++ tail)) k word t) (hne : more ≠ []) :
    ¬ Spells k (word ++ more) t' := by
  intro hmore
  have hpre : word ++ more <+: word ++ (more ++ tail) := ⟨tail, List.append_assoc _ _ _⟩
  have hle := h.longest _ _ hpre hmore
  have hpos := List.length_pos_of_ne_nil hne
  rw [List.length_append] at hle
  omega

theorem StartsWith.not_spells_head {t' : Token} (h : StartsWith (word ++ rest) k word t)
    (hc : rest.head? = some c) : ¬ Spells k (word ++ [c]) t' := by
  obtain ⟨tail, rfl⟩ := List.head?_eq_some_iff.mp hc
  exact StartsWith.not_spells [c] h (List.cons_ne_nil c [])

theorem forall_mem_concat {p : Char → Bool} {ds : List Char} (hall : ∀ d ∈ ds, p d = true)
    (hc : p c = true) : ∀ d ∈ ds ++ [c], p d = true := by
  intro d hd
  rcases List.mem_append.mp hd with hd | hd
  . exact hall d hd
  . rw [List.mem_singleton.mp hd]
    exact hc

theorem StartsWith.splitNumber_whole {ds : List Char}
    (h : StartsWith (ds ++ rest) .number ds (.term (.whole (Text.natOfDigits ds)))) (hne : ds ≠ [])
    (hall : ∀ d ∈ ds, Text.isDigit d = true) : splitNumber (ds ++ rest) = (ds, [], rest) := by
  apply Formula.splitNumber_whole hall
  . intro c hc
    rw [Bool.eq_false_iff]
    intro hdigit
    have hne' : ds ++ [c] ≠ [] := List.append_ne_nil_of_left_ne_nil hne _
    exact h.not_spells_head hc (.whole hne' (forall_mem_concat hall hdigit))
  . intro c more hrest
    rw [Bool.eq_false_iff]
    intro hdigit
    subst hrest
    have hfs : ∀ d ∈ [c], Text.isDigit d = true := by simpa using hdigit
    exact StartsWith.not_spells ['.', c] h (List.cons_ne_nil _ _)
      (.real hne hall (List.cons_ne_nil _ _) hfs)

theorem StartsWith.splitNumber_real {ds fs : List Char}
    (h : StartsWith (ds ++ '.' :: fs ++ rest) .number (ds ++ '.' :: fs) t) (hne : ds ≠ [])
    (hall : ∀ d ∈ ds, Text.isDigit d = true) (hne' : fs ≠ [])
    (hall' : ∀ d ∈ fs, Text.isDigit d = true) :
    splitNumber (ds ++ '.' :: (fs ++ rest)) = (ds, fs, rest) := by
  apply Formula.splitNumber_real hall hne' hall'
  intro c hc
  rw [Bool.eq_false_iff]
  intro hdigit
  have hfs : fs ++ [c] ≠ [] := List.append_ne_nil_of_left_ne_nil hne' _
  have hreal := Spells.real hne hall hfs (forall_mem_concat hall' hdigit)
  rw [← List.cons_append, ← List.append_assoc] at hreal
  exact h.not_spells_head hc hreal

theorem read_of_isDigit (h : Text.isDigit c = true) : Token.read position (c :: cs) =
    let (whole, fraction, rest) := splitNumber (c :: cs)
    if fraction.isEmpty then
      if integerDigitLimit < whole.length then .error (.digitLimit whole.length)
      else .ok (some (.term (.whole (Text.natOfDigits whole)), whole.length, rest))
    else
      .ok (some (.term (.real (Binary64.ofPointDigits whole fraction)),
        whole.length + 1 + fraction.length, rest)) := by
  rw [Token.read, if_neg (not_mark_of_isDigit h), if_pos h]

theorem read_of_isNameStart (h : isNameStart c = true) : Token.read position (c :: cs) =
    .ok (some (.term (.field (String.ofList (c :: cs.takeWhile isNameChar))),
      (c :: cs.takeWhile isNameChar).length, cs.dropWhile isNameChar)) := by
  rw [Token.read, if_neg (not_mark_of_isNameStart h), if_neg (not_isDigit_of_isNameStart h), if_pos h]

theorem read_of_startsWith (h : StartsWith (word ++ rest) k word t)
    (hshort : ∀ n, t = .term (.whole n) → word.length ≤ integerDigitLimit) :
    Token.read position (word ++ rest) = .ok (some (t, word.length, rest)) := by
  cases h.spells with
  | @text mark word s hmark hword =>
    have hback : mark ≠ '\\' := by
      rcases hmark with rfl | rfl <;> decide
    rw [List.cons_append, Token.read, if_pos hmark, List.append_assoc, List.singleton_append,
      hword.readQuoted?_eq hback]
    simp
  | whole hne hall =>
    have hsplit := h.splitNumber_whole hne hall
    have hle := Nat.not_lt.mpr (hshort _ rfl)
    obtain ⟨d, ds, rfl⟩ := List.exists_cons_of_ne_nil hne
    rw [List.cons_append] at hsplit
    rw [List.cons_append, read_of_isDigit (hall d List.mem_cons_self), hsplit]
    dsimp only
    rw [if_neg hle]
    rfl
  | @real ds fs hne hall hne' hall' =>
    have hsplit := h.splitNumber_real hne hall hne' hall'
    have hempty : fs.isEmpty = false := by simpa using hne'
    obtain ⟨d, ds, rfl⟩ := List.exists_cons_of_ne_nil hne
    rw [List.cons_append] at hsplit
    rw [List.append_assoc, List.cons_append, List.cons_append,
      read_of_isDigit (hall d List.mem_cons_self), hsplit]
    have hlength : (d :: ds).length + 1 + fs.length = (d :: (ds ++ '.' :: fs)).length := by
      simp only [List.length_cons, List.length_append]
      omega
    simp only [hempty, hlength]
    rfl
  | @name c cs hc hall =>
    have hrest : ∀ c', rest.head? = some c' → isNameChar c' = false := by
      intro c' hc'
      rw [Bool.eq_false_iff]
      intro hname
      exact h.not_spells_head hc' (.name hc (forall_mem_concat hall hname))
    obtain ⟨htake, hdrop⟩ := Text.takeWhile_append_of_head? hall hrest
    rw [List.cons_append, read_of_isNameStart hc, htake, hdrop]
  | plus => rfl

theorem read_of_stuck (h : ∀ k word t, word <+: c :: cs → ¬ Spells k word t) :
    Token.read position (c :: cs) = .error (.unexpectedCharacter c position) := by
  have hdigit : ¬ Text.isDigit c = true := by
    intro hdigit
    have hall : ∀ d ∈ [c], Text.isDigit d = true := by simpa using hdigit
    exact h .number [c] _ ⟨cs, rfl⟩ (.whole (List.cons_ne_nil c []) hall)
  have hname : ¬ isNameStart c = true := by
    intro hname
    exact h .name [c] _ ⟨cs, rfl⟩ (.name hname (by simp))
  have hplus : c ≠ '+' := by
    rintro rfl
    exact h .plus ['+'] _ ⟨cs, rfl⟩ .plus
  rw [Token.read, if_neg hdigit, if_neg hname, if_neg hplus]
  split
  . next hmark =>
    have hnone : readQuoted? c cs = none := by
      rw [Option.eq_none_iff_forall_ne_some]
      rintro ⟨s, n, rest⟩ hread
      obtain ⟨word, hword, rfl⟩ := quoted_of_readQuoted? hread
      exact h .text _ _ ⟨rest, by simp⟩ (.text hmark hword)
    rw [hnone]
  . rfl

end Read

section Next

variable {position : Nat} {k : Kind} {c : Char} {cs word rest : List Char} {t : Token}
  {ls : List Lexeme} {stuck : Option (Char × Nat)}

theorem kind?_of_isGap (h : isGap c = true) : kind? c = none := by
  simp only [isGap, Bool.or_eq_true, decide_eq_true_eq] at h
  rcases h with ((rfl | rfl) | rfl) | rfl <;> rfl

theorem next_of_isGap (h : isGap c = true) :
    Token.next position (c :: cs) = Token.next (position + 1) cs := by
  rw [Token.next, Token.next, List.takeWhile_cons_of_pos h, List.dropWhile_cons_of_pos h,
    List.length_cons, Nat.add_assoc, Nat.add_comm 1]

theorem next_of_not_isGap (h : isGap c = false) : Token.next position (c :: cs) =
    (Token.read position (c :: cs)).map fun found =>
      found.map fun (t, n, rest) => (t, position, position + n, rest) := by
  rw [Token.next, List.takeWhile_cons_of_neg (by simp [h]), List.dropWhile_cons_of_neg (by simp [h])]
  rfl

theorem next_of_startsWith (h : StartsWith (word ++ rest) k word t)
    (hshort : Lexeme.IsShort ⟨word, t, position⟩) : Token.next position (word ++ rest) =
      .ok (some (t, position, position + word.length, rest)) := by
  have hread : Token.read position (word ++ rest) = .ok (some (t, word.length, rest)) :=
    read_of_startsWith h hshort
  obtain ⟨c, cs, rfl, hkind⟩ := h.spells.kind?_eq
  have hgap : isGap c = false := by
    rw [Bool.eq_false_iff]
    intro hgap
    rw [kind?_of_isGap hgap] at hkind
    contradiction
  rw [List.cons_append, next_of_not_isGap hgap, ← List.cons_append, hread]
  rfl

theorem next_of_stuck (hgap : isGap c = false) (h : ∀ k word t, word <+: c :: cs → ¬ Spells k word t) :
    Token.next position (c :: cs) = .error (.unexpectedCharacter c position) := by
  rw [next_of_not_isGap hgap, read_of_stuck h]
  rfl

theorem StartsWith.length_lt (h : StartsWith (word ++ rest) k word t) :
    rest.length < (word ++ rest).length := by
  obtain ⟨c, cs, rfl, -⟩ := h.spells.kind?_eq
  rw [List.length_append, List.length_cons]
  omega

theorem exists_lexed (position : Nat) (cs : List Char) : ∃ ls stuck, Lexed position cs ls stuck := by
  cases cs with
  | nil => exact ⟨[], none, .ended⟩
  | cons c cs =>
    cases hgap : isGap c with
    | true =>
      obtain ⟨ls, stuck, h⟩ := exists_lexed (position + 1) cs
      exact ⟨ls, stuck, .gap hgap h⟩
    | false =>
      by_cases hnone : ∀ k word t, word <+: c :: cs → ¬ Spells k word t
      . exact ⟨[], some (c, position), .stuck hgap hnone⟩
      . simp only [not_forall, not_not] at hnone
        obtain ⟨k, first, t, hpre, hspells⟩ := hnone
        obtain ⟨word, t, hstarts⟩ := exists_startsWith hpre hspells
        obtain ⟨rest, hrest⟩ := hstarts.starts
        rw [← hrest] at hstarts
        have hlt : rest.length < (c :: cs).length := hrest ▸ hstarts.length_lt
        obtain ⟨ls, stuck, h⟩ := exists_lexed (position + word.length) rest
        rw [← hrest]
        exact ⟨_, stuck, .token hstarts h⟩
termination_by cs.length
decreasing_by
  . exact hlt
  . exact Nat.lt_succ_self _

theorem Lexed.length_word_le (h : Lexed position cs ls stuck) {l : Lexeme} (hl : l ∈ ls) :
    l.word.length ≤ cs.length := by
  induction h with
  | ended => contradiction
  | stuck => contradiction
  | gap _ _ ih => exact Nat.le_succ_of_le (ih hl)
  | token _ _ ih =>
    rw [List.length_append]
    rcases List.mem_cons.mp hl with rfl | hl
    . exact Nat.le_add_right _ _
    . exact Nat.le_trans (ih hl) (Nat.le_add_left _ _)

theorem Lexed.isShort_of_length_le (h : Lexed position cs ls stuck)
    (hle : cs.length ≤ integerDigitLimit) : ∀ l ∈ ls, l.IsShort := by
  intro l hl n _
  exact Nat.le_trans (h.length_word_le hl) hle

end Next

end TenantTables.Formula
