import TenantTables.Formula.Tree
import TenantTables.Proofs.Formula.Lexeme

namespace TenantTables.Formula

def sum (t : Term) (us : List Term) : Formula :=
  us.foldl (fun f u => .add f (.term u)) (.term t)

def sumTokens (t : Term) (us : List Term) : List Token :=
  .term t :: us.flatMap fun u => [.plus, .term u]

def IsStart (ts : List Token) : Prop :=
  ∃ more t us, ts ++ more = sumTokens t us

/--
The answer for the tokens of a text and the character after them at which no token starts: the tree, or
the first of the problems.
-/
inductive Answers : List Lexeme → Option (Char × Nat) → Except Fault Formula → Prop where
  | tree {ls : List Lexeme} {t : Term} {us : List Term} :
    ls.map (·.token) = sumTokens t us → Answers ls none (.ok (sum t us))
  | character {ls : List Lexeme} {c : Char} {position : Nat} :
    IsStart (ls.map (·.token)) →
      Answers ls (some (c, position)) (.error (.unexpectedCharacter c position))
  | token {before after : List Lexeme} {l : Lexeme} {stuck : Option (Char × Nat)} :
    IsStart (before.map (·.token)) → ¬ IsStart ((before ++ [l]).map (·.token)) →
      Answers (before ++ l :: after) stuck (.error (.unexpectedToken l.token l.position))
  | ending {ls : List Lexeme} :
    IsStart (ls.map (·.token)) → (∀ t us, ls.map (·.token) ≠ sumTokens t us) →
      Answers ls none (.error .unfinished)

section Tokens

variable {t u : Term} {us : List Term} {ts more : List Token} {token : Token}

theorem sumTokens_cons (t u : Term) (us : List Term) :
    sumTokens t (u :: us) = .term t :: .plus :: sumTokens u us := rfl

theorem sumTokens_concat (t u : Term) (us : List Term) :
    sumTokens t (us ++ [u]) = sumTokens t us ++ [.plus, .term u] := by
  simp [sumTokens]

theorem sum_concat (t u : Term) (us : List Term) : sum t (us ++ [u]) = .add (sum t us) (.term u) := by
  simp [sum]

theorem length_sumTokens (t : Term) (us : List Term) : (sumTokens t us).length = 2 * us.length + 1 := by
  induction us generalizing t with
  | nil => rfl
  | cons u us ih =>
    rw [sumTokens_cons, List.length_cons, List.length_cons, List.length_cons, ih]
    omega

theorem eq_plus_iff (h : ts ++ token :: more = sumTokens t us) : token = .plus ↔ ts.length % 2 = 1 := by
  induction us generalizing t ts with
  | nil =>
    cases ts with
    | nil =>
      cases h
      simp
    | cons _ ts => simp [sumTokens] at h
  | cons u us ih =>
    rw [sumTokens_cons] at h
    match ts with
    | [] =>
      cases h
      simp
    | [_] =>
      cases h
      simp
    | _ :: _ :: ts =>
      simp only [List.cons_append, List.cons.injEq] at h
      rw [ih h.2.2, List.length_cons, List.length_cons, Nat.add_assoc, Nat.add_mod_right]

theorem sumTokens_inj {t' : Term} {us' : List Term} (h : sumTokens t us = sumTokens t' us') :
    t = t' ∧ us = us' := by
  induction us generalizing t t' us' with
  | nil =>
    cases us' with
    | nil =>
      cases h
      exact ⟨rfl, rfl⟩
    | cons u' us' => simp [sumTokens] at h
  | cons u us ih =>
    cases us' with
    | nil => simp [sumTokens] at h
    | cons u' us' =>
      rw [sumTokens_cons, sumTokens_cons, List.cons.injEq, List.cons.injEq] at h
      obtain ⟨ht, -, hrest⟩ := h
      obtain ⟨rfl, rfl⟩ := ih hrest
      cases ht
      exact ⟨rfl, rfl⟩

theorem IsStart.of_append (h : IsStart (ts ++ more)) : IsStart ts := by
  obtain ⟨more', t, us, h⟩ := h
  exact ⟨more ++ more', t, us, by rw [← h, List.append_assoc]⟩

theorem isStart_sumTokens (t : Term) (us : List Term) : IsStart (sumTokens t us) :=
  ⟨[], t, us, List.append_nil _⟩

/--
After the tokens a term is expected, and each term that comes makes them those of a formula, with the
tree that it is put in.
-/
def Expects (ts : List Token) (tree : Term → Formula) : Prop :=
  ∀ u, ∃ t us, ts ++ [.term u] = sumTokens t us ∧ tree u = sum t us

theorem expects_nil : Expects [] .term :=
  fun u => ⟨u, [], rfl, rfl⟩

theorem expects_plus (t : Term) (us : List Term) :
    Expects (sumTokens t us ++ [.plus]) fun u => .add (sum t us) (.term u) := by
  intro u
  refine ⟨t, us ++ [u], ?_, (sum_concat t u us).symm⟩
  rw [sumTokens_concat, List.append_assoc]
  rfl

section Expected

variable {tree : Term → Formula}

theorem Expects.isStart (h : Expects ts tree) : IsStart ts := by
  obtain ⟨t, us, h, -⟩ := h (.text "")
  exact ⟨_, t, us, h⟩

theorem Expects.length (h : Expects ts tree) : ts.length % 2 = 0 := by
  obtain ⟨t, us, h, -⟩ := h (.text "")
  have hlength := length_sumTokens t us
  rw [← h, List.length_append, List.length_singleton] at hlength
  omega

theorem Expects.ne_sumTokens (h : Expects ts tree) (t : Term) (us : List Term) : ts ≠ sumTokens t us := by
  rintro rfl
  have hlength := h.length
  rw [length_sumTokens] at hlength
  omega

theorem Expects.not_isStart_plus (h : Expects ts tree) : ¬ IsStart (ts ++ [.plus]) := by
  rintro ⟨more, t, us, hmore⟩
  rw [List.append_assoc] at hmore
  have hodd := (eq_plus_iff hmore).mp rfl
  have heven := h.length
  omega

theorem not_isStart_term (t u : Term) (us : List Term) : ¬ IsStart (sumTokens t us ++ [.term u]) := by
  rintro ⟨more, t', us', hmore⟩
  rw [List.append_assoc] at hmore
  have hplus : Token.term u = .plus := by
    rw [List.singleton_append] at hmore
    rw [eq_plus_iff hmore, length_sumTokens]
    omega
  contradiction

end Expected

end Tokens

section Run

variable {position : Nat} {cs : List Char} {ls : List Lexeme} {stuck : Option (Char × Nat)}

theorem IsStart.of_before {before after : List Lexeme} {l : Lexeme}
    (h : IsStart ((before ++ l :: after).map (·.token))) : IsStart ((before ++ [l]).map (·.token)) := by
  rw [List.append_cons, List.map_append] at h
  exact h.of_append

theorem eq_of_not_isStart {before before' after after' : List Lexeme} {l l' : Lexeme}
    (heq : before ++ l :: after = before' ++ l' :: after')
    (hstart : IsStart (before.map (·.token))) (hnot : ¬ IsStart ((before ++ [l]).map (·.token)))
    (hstart' : IsStart (before'.map (·.token))) (hnot' : ¬ IsStart ((before' ++ [l']).map (·.token))) :
    l = l' := by
  rcases List.append_eq_append_iff.mp heq with ⟨more, rfl, hmore⟩ | ⟨more, rfl, hmore⟩
  . cases more with
    | nil => exact (List.cons.inj hmore).1
    | cons first more =>
      obtain ⟨rfl, -⟩ := List.cons.inj hmore
      exact absurd hstart'.of_before hnot
  . cases more with
    | nil => exact (List.cons.inj hmore).1.symm
    | cons first more =>
      obtain ⟨rfl, -⟩ := List.cons.inj hmore
      exact absurd hstart.of_before hnot'

theorem Answers.unique {r r' : Except Fault Formula} (h : Answers ls stuck r) (h' : Answers ls stuck r') :
    r = r' := by
  cases h with
  | tree htokens =>
    cases h' with
    | tree htokens' =>
      obtain ⟨rfl, rfl⟩ := sumTokens_inj (htokens.symm.trans htokens')
      rfl
    | token _ hnot => exact absurd (htokens ▸ isStart_sumTokens _ _ : IsStart _).of_before hnot
    | ending _ hne => exact absurd htokens (hne _ _)
  | character hstart =>
    cases h' with
    | character => rfl
    | token _ hnot => exact absurd hstart.of_before hnot
  | @token before after l _ hstart hnot =>
    generalize heq : before ++ l :: after = ls at h'
    cases h' with
    | tree htokens =>
      subst heq
      exact absurd (htokens ▸ isStart_sumTokens _ _ : IsStart _).of_before hnot
    | character hstart' =>
      subst heq
      exact absurd hstart'.of_before hnot
    | token hstart' hnot' => rw [eq_of_not_isStart heq hstart hnot hstart' hnot']
    | ending hstart' _ =>
      subst heq
      exact absurd hstart'.of_before hnot
  | ending hstart hne =>
    cases h' with
    | tree htokens => exact absurd htokens (hne _ _)
    | token _ hnot => exact absurd hstart.of_before hnot
    | ending => rfl

def readFrom (tree : Term → Formula) (fuel position : Nat) (cs : List Char) : Except Fault Formula := do
  let (t, after, rest) ← readTerm position cs
  readSum (tree t) fuel after rest

theorem Lexed.answers_of_isStart (h : Lexed position cs ls stuck) (before : List Lexeme)
    (hshort : ∀ mid l after, ls = mid ++ l :: after → IsStart ((before ++ mid).map (·.token)) → l.IsShort)
    {fuel : Nat} (hfuel : cs.length < fuel) :
    (∀ t us, before.map (·.token) = sumTokens t us →
      Answers (before ++ ls) stuck (readSum (sum t us) fuel position cs)) ∧
    (∀ tree, Expects (before.map (·.token)) tree →
      Answers (before ++ ls) stuck (readFrom tree fuel position cs)) := by
  induction h generalizing before fuel with
  | ended =>
    obtain ⟨fuel, rfl⟩ := Nat.exists_eq_add_one_of_ne_zero (Nat.ne_zero_of_lt hfuel)
    rw [List.append_nil]
    constructor
    . intro t us htokens
      exact .tree htokens
    . intro tree hexpects
      exact .ending hexpects.isStart hexpects.ne_sumTokens
  | @stuck position c cs hgap hnone =>
    obtain ⟨fuel, rfl⟩ := Nat.exists_eq_add_one_of_ne_zero (Nat.ne_zero_of_lt hfuel)
    have hnext : Token.next position (c :: cs) = .error (.unexpectedCharacter c position) :=
      next_of_stuck hgap hnone
    rw [List.append_nil]
    constructor
    . intro t us htokens
      rw [readSum, hnext]
      exact .character (htokens ▸ isStart_sumTokens t us)
    . intro tree hexpects
      rw [readFrom, readTerm, hnext]
      exact .character hexpects.isStart
  | @gap position c cs ls stuck hgap _ ih =>
    obtain ⟨fuel, rfl⟩ := Nat.exists_eq_add_one_of_ne_zero (Nat.ne_zero_of_lt hfuel)
    have hlt : cs.length < fuel + 1 := by
      rw [List.length_cons] at hfuel
      omega
    obtain ⟨hsum, hterm⟩ := ih before hshort hlt
    constructor
    . intro t us htokens
      rw [readSum, next_of_isGap hgap, ← readSum]
      exact hsum t us htokens
    . intro tree hexpects
      rw [readFrom, readTerm, next_of_isGap hgap, ← readTerm, ← readFrom]
      exact hterm tree hexpects
  | @token position k word rest t ls stuck hstarts _ ih =>
    obtain ⟨fuel, rfl⟩ := Nat.exists_eq_add_one_of_ne_zero (Nat.ne_zero_of_lt hfuel)
    have hnext (hstart : IsStart (before.map (·.token))) :=
      next_of_startsWith hstarts (hshort [] ⟨word, t, position⟩ ls rfl (by rwa [List.append_nil]))
    have hlt : rest.length < fuel := by
      have := hstarts.length_lt
      omega
    replace ih {fuel : Nat} (hlt : rest.length < fuel) := by
      refine ih (before ++ [⟨word, t, position⟩]) ?_ hlt
      intro mid l after hls hstart
      apply hshort (⟨word, t, position⟩ :: mid) l after (by rw [hls, List.cons_append])
      rwa [List.append_assoc, List.singleton_append] at hstart
    simp only [List.map_append, List.append_assoc, List.singleton_append] at ih
    constructor
    . intro t' us htokens
      rw [readSum, hnext (htokens ▸ isStart_sumTokens t' us)]
      cases t with
      | plus => exact (ih hlt).2 _ (htokens ▸ expects_plus t' us)
      | term u =>
        apply Answers.token (htokens ▸ isStart_sumTokens t' us)
        rw [List.map_append, htokens]
        exact not_isStart_term t' u us
    . intro tree hexpects
      rw [readFrom, readTerm, hnext hexpects.isStart]
      cases t with
      | plus =>
        apply Answers.token hexpects.isStart
        rw [List.map_append]
        exact hexpects.not_isStart_plus
      | term u =>
        -- the tokens read are those of a formula again
        obtain ⟨t', us, htokens, htree⟩ := hexpects u
        have hsum := (ih (Nat.lt_succ_of_lt hlt)).1 t' us htokens
        rw [← htree] at hsum
        exact hsum

theorem Lexed.answers (h : Lexed position cs ls stuck) (hshort : ∀ l ∈ ls, l.IsShort) (before : List Lexeme)
    {fuel : Nat} (hfuel : cs.length < fuel) :
    (∀ t us, before.map (·.token) = sumTokens t us →
      Answers (before ++ ls) stuck (readSum (sum t us) fuel position cs)) ∧
    (∀ tree, Expects (before.map (·.token)) tree →
      Answers (before ++ ls) stuck (readFrom tree fuel position cs)) := by
  apply h.answers_of_isStart before _ hfuel
  rintro mid l after rfl -
  exact hshort l (List.mem_append_right mid List.mem_cons_self)

end Run

def IsReadable (text : String) : Prop :=
  ∀ before l after stuck, Lexed 0 text.toList (before ++ l :: after) stuck →
    IsStart (before.map (·.token)) → l.IsShort

theorem IsReadable.exists_answers {text : String} (h : IsReadable text) :
    ∃ ls stuck, Lexed 0 text.toList ls stuck ∧ Answers ls stuck (read text) := by
  obtain ⟨ls, stuck, hlexed⟩ := exists_lexed 0 text.toList
  refine ⟨ls, stuck, hlexed, ?_⟩
  apply (hlexed.answers_of_isStart [] _ (Nat.lt_succ_self _)).2 .term expects_nil
  rintro before l after rfl hstart
  exact h before l after stuck hlexed hstart

def Fault.isLong : Fault → Bool
  | .digitLimit _ => true
  | .longInteger => true
  | _ => false

theorem IsReadable.isLong_fault {text : String} (h : IsReadable text) {e : Fault} (hread : read text = .error e) :
    e.isLong = false := by
  obtain ⟨ls, stuck, -, hanswers⟩ := h.exists_answers
  rw [hread] at hanswers
  cases hanswers <;> rfl

theorem isReadable_of_length_le {text : String} (h : text.toList.length ≤ integerDigitLimit) : IsReadable text := by
  intro before l after stuck hlexed _
  exact hlexed.isShort_of_length_le h l (List.mem_append_right before List.mem_cons_self)

theorem read_of_integerDigitLimit_lt {ds : List Char} (hds : ∀ d ∈ ds, Text.isDigit d = true)
    (hlong : integerDigitLimit < ds.length) : read (String.ofList ds) = .error (.digitLimit ds.length) := by
  cases ds with
  | nil => exact absurd hlong (Nat.not_lt_zero _)
  | cons d ds =>
    have hdigit : Text.isDigit d = true := hds d List.mem_cons_self
    have hgap : Token.isGap d = false := by
      rw [Bool.eq_false_iff]
      intro hgap
      have hkind := kind?_of_isGap hgap
      rw [kind?_of_isDigit hdigit] at hkind
      contradiction
    have hsplit : Token.splitNumber (d :: ds) = (d :: ds, [], []) := by
      have hwhole : Token.splitNumber (d :: ds ++ []) = (d :: ds, [], []) :=
        splitNumber_whole hds (by simp) (by simp)
      rwa [List.append_nil] at hwhole
    rw [read, String.toList_ofList, readTerm, next_of_not_isGap hgap, read_of_isDigit hdigit, hsplit]
    dsimp only
    rw [if_pos (show ([] : List Char).isEmpty = true from rfl), if_pos hlong]
    rfl

theorem read_eq_iff {text : String}
    (hshort : ∀ ls stuck, Lexed 0 text.toList ls stuck → ∀ l ∈ ls, l.IsShort) (r : Except Fault Formula) :
    read text = r ↔ ∃ ls stuck, Lexed 0 text.toList ls stuck ∧ Answers ls stuck r := by
  have hanswers {ls stuck} (h : Lexed 0 text.toList ls stuck) : Answers ls stuck (read text) :=
    (h.answers (hshort ls stuck h) [] (Nat.lt_succ_self _)).2 .term expects_nil
  constructor
  . rintro rfl
    obtain ⟨ls, stuck, h⟩ := exists_lexed 0 text.toList
    exact ⟨ls, stuck, h, hanswers h⟩
  . rintro ⟨ls, stuck, h, hr⟩
    exact (hanswers h).unique hr

theorem read_eq_of_short :
    (∀ ls stuck, Lexed 0 "'it\\'s' +\n007+x".toList ls stuck → ∀ l ∈ ls, l.IsShort) ∧
    ∃ ls stuck, Lexed 0 "'it\\'s' +\n007+x".toList ls stuck ∧ Answers ls stuck
      (.ok (.add (.add (.term (.text "it's")) (.term (.whole 7))) (.term (.field "x")))) := by
  have hshort : ∀ ls stuck, Lexed 0 "'it\\'s' +\n007+x".toList ls stuck → ∀ l ∈ ls, l.IsShort :=
    fun ls stuck h => h.isShort_of_length_le (by decide)
  exact ⟨hshort, (read_eq_iff hshort _).mp (by decide +kernel)⟩

example : read "1.5.2" = .error (.unexpectedCharacter '.' 3) := by decide +kernel

example : read "a + + 'b" = .error (.unexpectedToken .plus 4) := by decide +kernel

end TenantTables.Formula
