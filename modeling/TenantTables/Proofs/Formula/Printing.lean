import TenantTables.Proofs.Formula.Grammar
import TenantTables.Proofs.Text.Digit

namespace TenantTables.Formula

open Token

inductive Mark where
  | double
  | single
  deriving DecidableEq

def Mark.char : Mark → Char
  | .double => '"'
  | .single => '\''

def escape (mark : Mark) (c : Char) : List Char :=
  if c = '\\' ∨ c = mark.char then ['\\', c] else [c]

def quote (mark : Mark) (s : String) : List Char :=
  mark.char :: (s.toList.flatMap (escape mark) ++ [mark.char])

namespace Term

def IsPrintable : Term → Prop
  | .text _ => True
  | .whole n => (Nat.toDigits 10 n).length ≤ integerDigitLimit
  | .real _ => False
  | .field name => ∃ c cs, name.toList = c :: cs ∧ isNameStart c = true ∧ ∀ d ∈ cs, isNameChar d = true

def print (mark : Mark) : Term → List Char
  | .text s => quote mark s
  | .whole n => Nat.toDigits 10 n
  | .real x => x.print.toList
  | .field name => name.toList

end Term

structure Piece where
  term : Term
  mark : Mark
  before : List Char
  after : List Char
  isPrintable : term.IsPrintable
  isGap_before : ∀ c ∈ before, isGap c = true
  isGap_after : ∀ c ∈ after, isGap c = true

namespace Piece

def word (p : Piece) : List Char :=
  p.term.print p.mark

def print (p : Piece) : List Char :=
  p.before ++ (p.word ++ p.after)

end Piece

def print (p : Piece) (ps : List Piece) : String :=
  String.ofList (p.print ++ ps.flatMap fun q => '+' :: q.print)

section Word

variable {k : Kind} {mark : Mark} {t : Token} {word rest : List Char}

theorem Mark.char_eq (mark : Mark) : mark.char = '"' ∨ mark.char = '\'' := by
  cases mark
  . exact .inl rfl
  . exact .inr rfl

theorem quoted_escape (mark : Mark) (s : List Char) : Quoted mark.char (s.flatMap (escape mark)) s := by
  induction s with
  | nil => exact .nil
  | cons c s ih =>
    rw [List.flatMap_cons, escape]
    split
    . next h =>
      apply Quoted.escaped _ ih
      rintro rfl
      cases mark <;> simp [Mark.char] at h
    . next h =>
      rw [not_or] at h
      exact .plain h.2 h.1 ih

theorem spells_print (mark : Mark) {t : Term} (h : t.IsPrintable) : ∃ k, Spells k (t.print mark) (.term t) := by
  cases t with
  | text s =>
    have hspells := Spells.text mark.char_eq (quoted_escape mark s.toList)
    rw [String.ofList_toList] at hspells
    exact ⟨.text, hspells⟩
  | whole n =>
    have hspells := Spells.whole (Nat.toDigits_ne_nil (b := 10) (n := n)) fun d hd =>
      Text.isDigit_of_isDigit (Text.isDigit_of_mem_toDigits hd)
    rw [Text.natOfDigits_toDigits] at hspells
    exact ⟨.number, hspells⟩
  | real x => exact absurd h id
  | field name =>
    obtain ⟨c, cs, hname, hc, hcs⟩ := h
    have hspells := Spells.name hc hcs
    rw [← hname, String.ofList_toList] at hspells
    exact ⟨.name, hspells⟩

def IsEnd (cs : List Char) : Prop :=
  ∀ c, cs.head? = some c → isGap c = true ∨ c = '+'

theorem not_isWord_of_isEnd (h : IsEnd rest) {c : Char} (hc : rest.head? = some c) :
    Text.isDigit c = false ∧ isNameChar c = false ∧ c ≠ '.' := by
  rcases h c hc with hgap | rfl
  . simp only [isGap, Bool.or_eq_true, decide_eq_true_eq] at hgap
    rcases hgap with ((rfl | rfl) | rfl) | rfl <;> exact ⟨rfl, rfl, by decide⟩
  . exact ⟨rfl, rfl, by decide⟩

theorem Quoted.length_eq {mark : Char} {w w' s s' more more' : List Char} (hmark : mark ≠ '\\')
    (h : Quoted mark w s) (h' : Quoted mark w' s') (heq : w ++ mark :: more = w' ++ mark :: more') :
    w.length = w'.length := by
  have hread : readQuoted? mark (w ++ mark :: more) = _ := h.readQuoted?_eq hmark
  rw [heq, h'.readQuoted?_eq hmark, Option.some.injEq, Prod.mk.injEq, Prod.mk.injEq] at hread
  omega

theorem Spells.mem_number (h : Spells .number word t) {c : Char} (hc : c ∈ word) :
    Text.isDigit c = true ∨ c = '.' := by
  cases h with
  | whole _ hall => exact .inl (hall c hc)
  | real _ hall _ hall' =>
    rcases List.mem_append.mp hc with hc | hc
    . exact .inl (hall c hc)
    . rcases List.mem_cons.mp hc with rfl | hc
      . exact .inr rfl
      . exact .inl (hall' c hc)

theorem Spells.mem_name (h : Spells .name word t) {c : Char} (hc : c ∈ word) : isNameChar c = true := by
  cases h with
  | name hstart hall =>
    rcases List.mem_cons.mp hc with rfl | hc
    . simp only [isNameStart, isNameChar, Char.isAlphanum, Bool.or_eq_true] at hstart ⊢
      exact hstart.imp .inl id
    . exact hall c hc

theorem mem_of_length_lt {word word' : List Char} (hpre : word' <+: word ++ rest)
    (hlt : word.length < word'.length) : ∃ c, rest.head? = some c ∧ c ∈ word' := by
  obtain ⟨more, rfl⟩ := List.prefix_of_prefix_length_le (List.prefix_append word rest) hpre (Nat.le_of_lt hlt)
  obtain ⟨c, more, rfl⟩ : ∃ c cs, more = c :: cs := by
    apply List.exists_cons_of_ne_nil
    rintro rfl
    simp at hlt
  rw [List.prefix_append_right_inj] at hpre
  obtain ⟨tail, rfl⟩ := hpre
  exact ⟨c, rfl, by simp⟩

theorem startsWith_of_isEnd (h : Spells k word t) (hrest : IsEnd rest) :
    StartsWith (word ++ rest) k word t := by
  have hpre : word <+: word ++ rest := List.prefix_append word rest
  refine ⟨hpre, h, ?_, fun k' word' t' hpre' h' => Nat.le_of_eq (congrArg Kind.rank (h.kind_eq hpre h' hpre'))⟩
  intro word' t' hpre' h'
  apply Nat.le_of_not_lt
  intro hlt
  obtain ⟨c, hhead, hc⟩ := mem_of_length_lt hpre' hlt
  obtain ⟨hdigit, hname, hpoint⟩ := not_isWord_of_isEnd hrest hhead
  cases k with
  | text =>
    cases h with
    | @text mark w s hmark hquoted =>
      cases h' with
      | @text mark' w' s' hmark' hquoted' =>
        obtain ⟨tail, htail⟩ := hpre'
        simp only [List.cons_append, List.append_assoc, List.cons.injEq] at htail
        obtain ⟨rfl, htail⟩ := htail
        have hback : mark' ≠ '\\' := by
          rcases hmark with rfl | rfl <;> decide
        have hlength := hquoted'.length_eq hback hquoted htail
        simp [hlength] at hlt
  | number =>
    rcases h'.mem_number hc with hc | rfl
    . rw [hdigit] at hc
      contradiction
    . contradiction
  | name =>
    rw [h'.mem_name hc] at hname
    contradiction
  | plus =>
    cases h
    cases h'
    simp at hlt

end Word

section Pieces

variable {position : Nat} {gap cs : List Char} {ls : List Lexeme} {stuck : Option (Char × Nat)}

theorem lexed_gap (hgap : ∀ c ∈ gap, isGap c = true) (h : Lexed (position + gap.length) cs ls stuck) :
    Lexed position (gap ++ cs) ls stuck := by
  induction gap generalizing position with
  | nil => exact h
  | cons c gap ih =>
    apply Lexed.gap (hgap c List.mem_cons_self)
    apply ih fun d hd => hgap d (List.mem_cons_of_mem _ hd)
    rw [List.length_cons, Nat.add_comm gap.length, ← Nat.add_assoc] at h
    exact h

theorem isEnd_append (hgap : ∀ c ∈ gap, isGap c = true) (h : IsEnd cs) : IsEnd (gap ++ cs) := by
  cases gap with
  | nil => exact h
  | cons c gap =>
    rintro _ ⟨⟩
    exact .inl (hgap c List.mem_cons_self)

theorem Piece.isShort (p : Piece) (position : Nat) : Lexeme.IsShort ⟨p.word, .term p.term, position⟩ := by
  intro n hn
  obtain ⟨t, mark, _, _, hprintable, _, _⟩ := p
  obtain rfl : t = .whole n := Token.term.inj hn
  exact hprintable

theorem Piece.lexed (p : Piece) (hcs : IsEnd cs)
    (h : ∀ position, ∃ ls, Lexed position cs ls stuck ∧ ls.map (·.token) = ts ∧ ∀ l ∈ ls, l.IsShort) :
    ∃ ls, Lexed position (p.print ++ cs) ls stuck ∧ ls.map (·.token) = .term p.term :: ts ∧
      ∀ l ∈ ls, l.IsShort := by
  obtain ⟨k, hspells⟩ := spells_print p.mark p.isPrintable
  obtain ⟨ls, hls, htokens, hshort⟩ := h (position + p.before.length + p.word.length + p.after.length)
  have hrest : IsEnd (p.after ++ cs) := isEnd_append p.isGap_after hcs
  refine ⟨⟨p.word, .term p.term, position + p.before.length⟩ :: ls, ?_, ?_, ?_⟩
  . rw [Piece.print, List.append_assoc, List.append_assoc]
    apply lexed_gap p.isGap_before
    apply Lexed.token (startsWith_of_isEnd hspells hrest)
    exact lexed_gap p.isGap_after hls
  . rw [List.map_cons, htokens]
  . rw [List.forall_mem_cons]
    exact ⟨p.isShort _, hshort⟩

theorem isEnd_pieces (ps : List Piece) : IsEnd (ps.flatMap fun q => '+' :: q.print) := by
  cases ps with
  | nil => simp [IsEnd]
  | cons q ps =>
    rintro _ ⟨⟩
    exact .inr rfl

theorem startsWith_plus (cs : List Char) : StartsWith (['+'] ++ cs) .plus ['+'] .plus := by
  refine ⟨List.prefix_append _ _, .plus, ?_, ?_⟩
  . intro word' t' _ h'
    cases h'
    exact Nat.le_refl _
  . intro k' word' t' hpre' h'
    exact Nat.le_of_eq (congrArg Kind.rank (Spells.plus.kind_eq (List.prefix_append _ cs) h' hpre'))

theorem lexed_print (p : Piece) (ps : List Piece) (position : Nat) :
    ∃ ls, Lexed position (p.print ++ ps.flatMap fun q => '+' :: q.print) ls none ∧
      ls.map (·.token) = sumTokens p.term (ps.map (·.term)) ∧ ∀ l ∈ ls, l.IsShort := by
  induction ps generalizing p position with
  | nil =>
    apply p.lexed (isEnd_pieces [])
    intro position
    exact ⟨[], .ended, rfl, by simp⟩
  | cons q ps ih =>
    apply p.lexed (isEnd_pieces (q :: ps))
    intro position
    obtain ⟨ls, hls, htokens, hshort⟩ := ih q (position + 1)
    refine ⟨⟨['+'], .plus, position⟩ :: ls, .token (startsWith_plus _) hls, ?_, ?_⟩
    . rw [List.map_cons, htokens]
      rfl
    . rw [List.forall_mem_cons]
      refine ⟨?_, hshort⟩
      rintro n ⟨⟩

end Pieces

theorem read_print (p : Piece) (ps : List Piece) :
    read (print p ps) = .ok (sum p.term (ps.map (·.term))) := by
  obtain ⟨ls, hls, htokens, hshort⟩ := lexed_print p ps 0
  rw [← String.toList_ofList (l := p.print ++ _)] at hls
  have hanswers : Answers ls none (read (print p ps)) :=
    (hls.answers hshort [] (Nat.lt_succ_self _)).2 .term expects_nil
  exact hanswers.unique (.tree htokens)

theorem read_print_of_escapes :
    let p : Piece := ⟨.text "a\"b'c\\", .double, [' ', '\t'], ['\n'], trivial, List.all_eq_true.mp rfl,
      List.all_eq_true.mp rfl⟩
    let q : Piece := ⟨.whole 120, .double, [], [], Nat.le_of_ble_eq_true rfl, nofun, nofun⟩
    let r : Piece := ⟨.field "_n1", .single, [], ['\r'], ⟨'_', ['n', '1'], rfl, rfl, List.all_eq_true.mp rfl⟩,
      nofun, List.all_eq_true.mp rfl⟩
    let s : Piece := ⟨.text "it's \"\n", .single, [' '], [], trivial, List.all_eq_true.mp rfl, nofun⟩
    let formula := " \t\"a\\\"b'c\\\\\"\n+120+_n1\r+ 'it\\'s \"\n'"
    print p [q, r, s] = formula ∧ read formula =
      .ok (.add (.add (.add (.term (.text "a\"b'c\\")) (.term (.whole 120))) (.term (.field "_n1")))
        (.term (.text "it's \"\n"))) := by
  intro p q r s formula
  have hformula : print p [q, r, s] = formula := by decide
  exact ⟨hformula, hformula ▸ read_print p [q, r, s]⟩

end TenantTables.Formula
