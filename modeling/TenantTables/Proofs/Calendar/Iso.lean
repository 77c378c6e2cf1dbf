import Mathlib.Algebra.Order.Ring.Nat
import TenantTables.Calendar.Iso
import TenantTables.Calendar.IsoReader
import TenantTables.Proofs.Text.Digit
import TenantTables.Proofs.Text.Space

namespace TenantTables

namespace Calendar

variable {width n : Nat}

theorem toList_padded (width n : Nat) : (padded width n).toList =
    List.replicate (width - (Nat.toDigits 10 n).length) '0' ++ Nat.toDigits 10 n := by
  simp [padded, Nat.toList_repr]

theorem isDigit_of_mem_padded {c : Char} (h : c ∈ (padded width n).toList) : c.isDigit = true := by
  rw [toList_padded, List.mem_append, List.mem_replicate] at h
  rcases h with ⟨-, rfl⟩ | h
  . rfl
  . exact Nat.isDigit_of_mem_toDigits (by decide) (by decide) h

theorem length_padded (hwidth : 0 < width) (hn : n < 10 ^ width) : (padded width n).toList.length = width := by
  have hle := (Nat.length_toDigits_le_iff (b := 10) (by decide) hwidth).mpr hn
  rw [toList_padded, List.length_append, List.length_replicate]
  omega

theorem natOfDigits_padded (width n : Nat) : Text.natOfDigits (padded width n).toList = n := by
  rw [toList_padded, Text.natOfDigits_replicate_append]
  exact Text.natOfDigits_toDigits n

end Calendar

namespace IsoReader

open Calendar

theorem digits?_padded {width n : Nat} (hwidth : 0 < width) (hn : n < 10 ^ width) (rest : List Char) :
    digits? width ((padded width n).toList ++ rest) = some (n, rest) := by
  have hlength := length_padded hwidth hn
  have htake : ((padded width n).toList ++ rest).take width = (padded width n).toList :=
    List.take_left' hlength
  have hdrop : ((padded width n).toList ++ rest).drop width = rest :=
    List.drop_left' hlength
  have hall : (padded width n).toList.all Char.isDigit = true :=
    List.all_eq_true.mpr fun c hc => isDigit_of_mem_padded hc
  unfold digits?
  dsimp only
  rw [htake, hdrop, hlength, hall, natOfDigits_padded]
  simp

variable {n : Nat} {rest : List Char}

theorem exists_padded_two (hn : n < 10 ^ 2) :
    ∃ a b, (padded 2 n).toList = [a, b] ∧ a.isDigit = true ∧ b.isDigit = true := by
  obtain ⟨a, b, hchars⟩ := List.length_eq_two.mp (length_padded (by decide) hn)
  have hdigit {c : Char} (hc : c ∈ [a, b]) : c.isDigit = true :=
    isDigit_of_mem_padded (hchars ▸ hc)
  exact ⟨a, b, hchars, hdigit (by simp), hdigit (by simp)⟩

theorem ne_of_isDigit {c d : Char} (hc : c.isDigit = true) (hd : d.isDigit = false) : c ≠ d := by
  rintro rfl
  simp [hc] at hd

theorem toList_print (d : Date) : d.print.toList = (padded 4 d.year).toList ++
    '-' :: ((padded 2 d.month).toList ++ '-' :: (padded 2 d.day).toList) := by
  simp [Date.print]

theorem bounds_of_date (d : Date) : d.year < 10 ^ 4 ∧ d.month < 10 ^ 2 ∧ d.day < 10 ^ 2 := by
  obtain ⟨⟨-, hyear⟩, ⟨-, hmonth⟩, -, hday⟩ := d.valid
  have hdays : daysInMonth d.year d.month ≤ 31 := by
    unfold daysInMonth
    split
    . split <;> decide
    all_goals decide
  omega

theorem readDate_print (d : Date) : readDate d.print.toList = .ok (d.year, d.month, d.day) := by
  obtain ⟨hyear, hmonth, hday⟩ := bounds_of_date d
  obtain ⟨a, b, hchars, ha, -⟩ := exists_padded_two hmonth
  have hweek : a ≠ 'W' := ne_of_isDigit ha rfl
  have hmiddle := digits?_padded (by decide) hmonth ('-' :: (padded 2 d.day).toList)
  have hlast := digits?_padded (by decide) hday []
  rw [hchars] at hmiddle
  rw [List.append_nil] at hlast
  rw [readDate, toList_print, digits?_padded (by decide) hyear, hchars]
  simp only [List.cons_append, List.nil_append] at hmiddle ⊢
  simp [hweek, hmiddle, hlast, pure, Except.pure]

def fractionOf (micros : Nat) : List Char :=
  if micros = 0 then [] else '.' :: (padded 6 micros).toList

theorem toList_printTime (t : Nat) : (Moment.printTime t).toList = (padded 2 (t / hour)).toList ++
    ':' :: ((padded 2 (t / minute % 60)).toList ++ ':' :: ((padded 2 (t / second % 60)).toList ++
      fractionOf (t % second))) := by
  unfold Moment.printTime fractionOf
  dsimp only
  split <;> simp

def fieldsOf (t : Nat) : ClockFields where
  hours := t / hour
  minutes := t / minute % 60
  seconds := t / second % 60
  micros := t % second

theorem total_fieldsOf (t : Nat) : (fieldsOf t).total = t := by
  unfold ClockFields.total fieldsOf hour minute second
  dsimp only
  omega

theorem readFraction?_padded {micros : Nat} (h : micros < 10 ^ 6) (next : Char) :
    readFraction? (padded 6 micros).toList next = some (micros, decide (next ≠ '\x00')) := by
  have hdigits := digits?_padded (by decide) h []
  rw [List.append_nil] at hdigits
  have hlength := length_padded (by decide) h
  unfold readFraction?
  dsimp only
  rw [hlength, Nat.min_self, hdigits]
  show some (micros * 1, decide (next ≠ '\x00')) = _
  rw [Nat.mul_one]

theorem afterMinutes_padded {seconds micros : Nat} (hseconds : seconds < 10 ^ 2) (hmicros : micros < 10 ^ 6)
    (next : Char) (fields : ClockFields) (hfields : fields.micros = 0) :
    readClock?.afterMinutes next true fields ((padded 2 seconds).toList ++ fractionOf micros) =
      some ({ fields with seconds, micros }, decide (next ≠ '\x00')) := by
  unfold readClock?.afterMinutes
  rw [digits?_padded (by decide) hseconds]
  dsimp only [Option.bind_some]
  by_cases hzero : micros = 0
  . simp [fractionOf, hzero, hfields]
  . have hfraction := readFraction?_padded hmicros next
    rw [fractionOf, if_neg hzero]
    cases hchars : (padded 6 micros).toList with
    | nil =>
      have hlength := length_padded (by decide) hmicros
      rw [hchars] at hlength
      simp at hlength
    | cons c cs =>
      rw [hchars] at hfraction
      simp [readClock?.withFraction, hfraction]

theorem readClock?_printTime {t : Nat} (ht : t < dayLength) (next : Char) :
    readClock? (Moment.printTime t).toList next = some (fieldsOf t, decide (next ≠ '\x00')) := by
  have hhours : t / hour < 10 ^ 2 := by
    unfold hour minute second
    unfold dayLength hour minute second at ht
    omega
  have hminutes : t / minute % 60 < 10 ^ 2 := by omega
  have hseconds : t / second % 60 < 10 ^ 2 := by omega
  have hmicros : t % second < 10 ^ 6 := Nat.mod_lt _ (by decide)
  obtain ⟨a, b, hminuteChars, -, -⟩ := exists_padded_two hminutes
  obtain ⟨c, d, hsecondChars, -, -⟩ := exists_padded_two hseconds
  have hafterHours := digits?_padded (by decide) hminutes
    (':' :: ((padded 2 (t / second % 60)).toList ++ fractionOf (t % second)))
  have hafterMinutes := afterMinutes_padded hseconds hmicros next
    { hours := t / hour, minutes := t / minute % 60 } rfl
  rw [toList_printTime]
  unfold readClock?
  rw [digits?_padded (by decide) hhours]
  rw [hminuteChars] at hafterHours ⊢
  rw [hsecondChars] at hafterHours hafterMinutes ⊢
  simp only [List.cons_append, List.nil_append, Option.bind_some] at hafterHours hafterMinutes ⊢
  simp [readClock?.afterHours, hafterHours, hafterMinutes, fieldsOf]

theorem readClock?_printOffset {n : Nat} (hn : n < dayLength) (hshort : n % minute = 0) :
    readClock? ((padded 2 (n / hour)).toList ++ ':' :: (padded 2 (n / minute % 60)).toList) '\x00' =
      some (fieldsOf n, false) := by
  have hhours : n / hour < 10 ^ 2 := by
    unfold hour minute second
    unfold dayLength hour minute second at hn
    omega
  have hminutes : n / minute % 60 < 10 ^ 2 := by omega
  have hseconds : n / second % 60 = 0 := by
    unfold second
    unfold minute second at hshort
    omega
  have hmicros : n % second = 0 := by
    unfold second
    unfold minute second at hshort
    omega
  obtain ⟨a, b, hminuteChars, -, -⟩ := exists_padded_two hminutes
  have hafterHours := digits?_padded (by decide) hminutes []
  rw [List.append_nil] at hafterHours
  unfold readClock?
  rw [digits?_padded (by decide) hhours]
  rw [hminuteChars] at hafterHours ⊢
  simp [readClock?.afterHours, hafterHours, fieldsOf, hseconds, hmicros]

def isZone (c : Char) : Bool :=
  c = '+' || c = '-' || c = 'Z'

theorem mem_printTime {t : Nat} {c : Char} (h : c ∈ (Moment.printTime t).toList) :
    c.isDigit = true ∨ c = ':' ∨ c = '.' := by
  rw [toList_printTime] at h
  rcases List.mem_append.mp h with h | h
  . exact .inl (isDigit_of_mem_padded h)
  rcases List.mem_cons.mp h with rfl | h
  . simp
  rcases List.mem_append.mp h with h | h
  . exact .inl (isDigit_of_mem_padded h)
  rcases List.mem_cons.mp h with rfl | h
  . simp
  rcases List.mem_append.mp h with h | h
  . exact .inl (isDigit_of_mem_padded h)
  unfold fractionOf at h
  split at h
  . simp at h
  . rcases List.mem_cons.mp h with rfl | h
    . simp
    . exact .inl (isDigit_of_mem_padded h)

theorem isZone_of_mem_printTime {t : Nat} {c : Char} (h : c ∈ (Moment.printTime t).toList) :
    isZone c = false := by
  rcases mem_printTime h with hdigit | rfl | rfl
  . simp [isZone, ne_of_isDigit hdigit]
  . rfl
  . rfl

def printZone (offset : Option Int) : List Char :=
  (offset.map fun o => (Moment.printOffset o).toList).getD []

theorem readClock?_printZone {o : Int} (ho : o.natAbs < dayLength) :
    ∃ cs, (Moment.printOffset o).toList = (if o < 0 then '-' else '+') :: cs ∧
      readClock? cs '\x00' = some (fieldsOf o.natAbs, false) := by
  unfold Moment.printOffset
  dsimp only
  split
  . next hshort =>
    refine ⟨_, ?_, readClock?_printOffset ho hshort⟩
    split <;> simp
  . refine ⟨_, ?_, readClock?_printTime ho _⟩
    split <;> simp

theorem split_at_zone {clock zone : List Char} (hclock : ∀ c ∈ clock, isZone c = false)
    (hzone : ∀ c ∈ zone.head?, isZone c = true) :
    (clock ++ zone).takeWhile (fun c => !isZone c) = clock ∧
      (clock ++ zone).dropWhile (fun c => !isZone c) = zone := by
  apply Text.takeWhile_append_of_head?
  . intro c hc
    rw [hclock c hc]
    rfl
  . intro c hc
    rw [hzone c hc]
    rfl

/--
An offset as it is read back. Less than a second counts as none.
-/
def readBack (o : Int) : Int :=
  if o.natAbs < second then 0 else o

theorem natAbs_readBack {o : Int} (h : o.natAbs < dayLength) : (readBack o).natAbs < dayLength := by
  unfold readBack
  split
  . decide
  . exact h

theorem readTime_print {t : Nat} (ht : t < dayLength) {offset : Option Int}
    (hoffset : ∀ o, offset = some o → o.natAbs < dayLength) :
    readTime ((Moment.printTime t).toList ++ printZone offset) = .ok (fieldsOf t, offset.map readBack) := by
  have hclock (zone : List Char) := readClock?_printTime ht (zone.headD '\x00')
  have hsplit (zone : List Char) (hzone : ∀ c ∈ zone.head?, isZone c = true) :=
    split_at_zone (fun _ => isZone_of_mem_printTime (t := t)) hzone
  simp only [isZone] at hsplit
  cases offset with
  | none =>
    obtain ⟨htake, hdrop⟩ := hsplit [] (by simp)
    unfold readTime printZone
    dsimp only [Option.map_none, Option.getD_none]
    rw [htake, hdrop, hclock]
    simp [pure, Except.pure]
  | some o =>
    obtain ⟨cs, hchars, hread⟩ := readClock?_printZone (hoffset o rfl)
    obtain ⟨htake, hdrop⟩ := hsplit ((if o < 0 then '-' else '+') :: cs) (by split <;> simp)
    unfold readTime printZone
    dsimp only [Option.map_some, Option.getD_some]
    rw [hchars, htake, hdrop, hclock]
    have hnone : o.natAbs / second = 0 ↔ o.natAbs < second := Nat.div_eq_zero_iff_lt (by decide)
    by_cases hsign : o < 0
    . rw [if_pos hsign]
      obtain ⟨n, rfl⟩ : ∃ n : Nat, o = -n := ⟨o.natAbs, by omega⟩
      rw [Int.natAbs_neg, Int.natAbs_natCast] at hread hnone
      simp [hread, total_fieldsOf, hnone, readBack, pure, Except.pure]
    . rw [if_neg hsign]
      obtain ⟨n, rfl⟩ : ∃ n : Nat, o = n := ⟨o.natAbs, by omega⟩
      rw [Int.natAbs_natCast] at hread hnone
      simp [hread, total_fieldsOf, hnone, readBack, pure, Except.pure]

def isPrinted (c : Char) : Bool :=
  c.isDigit || c = '-' || c = ':' || c = '.' || c = '+' || c = 'T'

theorem utf8Size_of_isPrinted {c : Char} (h : isPrinted c = true) : c.utf8Size = 1 := by
  simp only [isPrinted, Bool.or_eq_true, decide_eq_true_eq] at h
  rcases h with ((((hdigit | rfl) | rfl) | rfl) | rfl) | rfl
  . rw [Char.utf8Size_eq_one_iff, UInt32.le_iff_toNat_le]
    have hle : c.val.toNat ≤ 57 := (Char.isDigit_iff_toNat.mp hdigit).2
    exact Nat.le_trans hle (by decide)
  all_goals rfl

theorem isSpace_of_isPrinted {c : Char} (h : isPrinted c = true) : Text.isSpace c = false := by
  simp only [isPrinted, Bool.or_eq_true, decide_eq_true_eq] at h
  rcases h with ((((hdigit | rfl) | rfl) | rfl) | rfl) | rfl
  . exact Text.isSpace_of_isDigit hdigit
  all_goals rfl

theorem isPrinted_of_isDigit {c : Char} (h : c.isDigit = true) : isPrinted c = true := by
  simp [isPrinted, h]

theorem isPrinted_of_mem_print_date {d : Date} {c : Char} (h : c ∈ d.print.toList) : isPrinted c = true := by
  rw [toList_print] at h
  rcases List.mem_append.mp h with h | h
  . exact isPrinted_of_isDigit (isDigit_of_mem_padded h)
  rcases List.mem_cons.mp h with rfl | h
  . rfl
  rcases List.mem_append.mp h with h | h
  . exact isPrinted_of_isDigit (isDigit_of_mem_padded h)
  rcases List.mem_cons.mp h with rfl | h
  . rfl
  . exact isPrinted_of_isDigit (isDigit_of_mem_padded h)

theorem isPrinted_of_mem_printTime {t : Nat} {c : Char} (h : c ∈ (Moment.printTime t).toList) :
    isPrinted c = true := by
  rcases mem_printTime h with hdigit | rfl | rfl
  . exact isPrinted_of_isDigit hdigit
  . rfl
  . rfl

theorem isPrinted_of_mem_printOffset {o : Int} {c : Char} (h : c ∈ (Moment.printOffset o).toList) :
    isPrinted c = true := by
  have hsign {c : Char} (hc : c ∈ (if o < 0 then "-" else "+").toList) : isPrinted c = true := by
    split at hc
    . obtain rfl : c = '-' := by simpa using hc
      rfl
    . obtain rfl : c = '+' := by simpa using hc
      rfl
  unfold Moment.printOffset at h
  dsimp only at h
  split at h
  . rw [String.toList_append, String.toList_append, String.toList_append] at h
    rcases List.mem_append.mp h with h | h
    . exact hsign h
    rcases List.mem_append.mp h with h | h
    . rcases List.mem_append.mp h with h | h
      . exact isPrinted_of_isDigit (isDigit_of_mem_padded h)
      . obtain rfl : c = ':' := by simpa using h
        rfl
    . exact isPrinted_of_isDigit (isDigit_of_mem_padded h)
  . rw [String.toList_append] at h
    rcases List.mem_append.mp h with h | h
    . exact hsign h
    . exact isPrinted_of_mem_printTime h

theorem toList_print_moment (m : Moment) : m.print.toList =
    m.date.print.toList ++ 'T' :: ((Moment.printTime m.time.val).toList ++ printZone m.offset) := by
  unfold Moment.print Moment.printWith printZone
  cases m.offset <;> simp

theorem isPrinted_of_mem_print {m : Moment} {c : Char} (h : c ∈ m.print.toList) : isPrinted c = true := by
  rw [toList_print_moment] at h
  rcases List.mem_append.mp h with h | h
  . exact isPrinted_of_mem_print_date h
  rcases List.mem_cons.mp h with rfl | h
  . rfl
  rcases List.mem_append.mp h with h | h
  . exact isPrinted_of_mem_printTime h
  unfold printZone at h
  cases hoffset : m.offset with
  | none => simp [hoffset] at h
  | some o =>
    rw [hoffset] at h
    exact isPrinted_of_mem_printOffset h

theorem octets_of_isPrinted {cs : List Char} (h : ∀ c ∈ cs, isPrinted c = true) : octets cs = cs := by
  unfold octets
  induction cs with
  | nil => rfl
  | cons c cs ih =>
    rw [List.flatMap_cons, utf8Size_of_isPrinted (h c List.mem_cons_self),
      ih fun c hc => h c (List.mem_cons_of_mem _ hc)]
    rfl

theorem length_print_date (d : Date) : d.print.toList.length = 10 := by
  obtain ⟨hyear, hmonth, hday⟩ := bounds_of_date d
  rw [toList_print, List.length_append, List.length_cons, List.length_append, List.length_cons,
    length_padded (by decide) hyear, length_padded (by decide) hmonth, length_padded (by decide) hday]

theorem dateLength?_print (d : Date) (rest : List Char) :
    dateLength? (d.print.toList ++ rest) = some 10 := by
  obtain ⟨hyear, hmonth, hday⟩ := bounds_of_date d
  obtain ⟨a, b, hchars, ha, -⟩ := exists_padded_two hmonth
  have hweek : a ≠ 'W' := ne_of_isDigit ha rfl
  have hlength : ¬(d.print.toList ++ rest).length = 7 := by
    rw [List.length_append, length_print_date]
    omega
  have hyearLength := length_padded (by decide) hyear
  have hhyphen : (d.print.toList ++ rest)[4]? = some '-' := by
    rw [toList_print, List.append_assoc, List.getElem?_append_right (by omega), hyearLength]
    rfl
  have hmonthStart : (d.print.toList ++ rest)[5]? = some a := by
    rw [toList_print, List.append_assoc, List.getElem?_append_right (by omega), hyearLength, hchars]
    rfl
  unfold dateLength?
  rw [if_neg hlength, if_pos hhyphen, hmonthStart, if_neg (by simpa using hweek)]

theorem demand_of {condition : Bool} {fault : IsoFault} (h : condition = true) :
    demand condition fault = .ok () := by
  rw [demand, if_pos h]

theorem ok_bind (a : α) (f : α → Except IsoFault β) : (Except.ok a >>= f) = f a := rfl

theorem ofTime?_fieldsOf (d : Date) {t : Nat} (ht : t < dayLength) (offset : Option Int) :
    Moment.ofTime? d (fieldsOf t).hours (fieldsOf t).minutes (fieldsOf t).seconds (fieldsOf t).micros offset =
      some ⟨d, ⟨t, ht⟩, offset⟩ := by
  have htotal : (fieldsOf t).hours * hour + (fieldsOf t).minutes * minute + (fieldsOf t).seconds * second +
      (fieldsOf t).micros = t := total_fieldsOf t
  unfold Moment.ofTime?
  simp only [htotal, ht, ↓reduceDIte]

theorem read_of_parts {s : String} {d : Date} {rest : List Char} {t : Nat} {offset : Option Int}
    (hoctets : octets s.toList = s.toList) (hchars : s.toList = d.print.toList ++ rest)
    (ht : t < dayLength) (hoffset : ∀ o, offset = some o → o.natAbs < dayLength)
    (hrest : readAfterDate rest = .ok (fieldsOf t, offset)) :
    read s = .ok ⟨d, ⟨t, ht⟩, offset⟩ := by
  have hlength := length_print_date d
  have hshort : 7 ≤ s.length := by
    rw [← String.length_toList, hchars, List.length_append]
    omega
  have htake : (d.print.toList ++ rest).take 10 = d.print.toList := List.take_left' hlength
  have hdrop : (d.print.toList ++ rest).drop 10 = rest := List.drop_left' hlength
  have hvalid : Date.ofYmd? d.year d.month d.day = some d := by
    rw [Date.ofYmd?, dif_pos d.valid]
  obtain ⟨⟨hyear, hyear'⟩, ⟨hmonth, hmonth'⟩, -⟩ := d.valid
  have hhours : (fieldsOf t).hours < 24 := by
    unfold fieldsOf hour minute second
    unfold dayLength hour minute second at ht
    dsimp only
    omega
  have hminutes : (fieldsOf t).minutes < 60 := Nat.mod_lt _ (by decide)
  have hseconds : (fieldsOf t).seconds < 60 := Nat.mod_lt _ (by decide)
  have hlt : (offset.getD 0).natAbs < dayLength := by
    cases offset with
    | none => decide
    | some o => exact hoffset o rfl
  have hyears : (decide (1 ≤ d.year) && decide (d.year ≤ 9999)) = true := by
    simp [hyear, hyear']
  have hmonths : (decide (1 ≤ d.month) && decide (d.month ≤ 12)) = true := by
    simp [hmonth, hmonth']
  unfold read
  rw [hoctets, hchars, demand_of (decide_eq_true hshort), ok_bind]
  dsimp only
  rw [dateLength?_print, demandSome, ok_bind, htake, readDate_print, ok_bind]
  dsimp only
  rw [hdrop, hrest, ok_bind]
  dsimp only
  rw [demand_of (decide_eq_true hlt), ok_bind, demand_of hyears, ok_bind, demand_of hmonths, ok_bind, hvalid,
    demandSome, ok_bind, demand_of (decide_eq_true hhours), ok_bind, demand_of (decide_eq_true hminutes), ok_bind,
    demand_of (decide_eq_true hseconds), ok_bind, ofTime?_fieldsOf d ht, demandSome]

theorem read_print_date (d : Date) : read d.print = .ok ⟨d, ⟨0, by decide⟩, none⟩ := by
  refine read_of_parts (octets_of_isPrinted fun _ => isPrinted_of_mem_print_date) (List.append_nil _).symm _ ?_ rfl
  simp

theorem read_print_moment (m : Moment) (hoffset : ∀ o, m.offset = some o → o.natAbs < dayLength) :
    read m.print = .ok { m with offset := m.offset.map readBack } := by
  have hread : ∀ o, m.offset.map readBack = some o → o.natAbs < dayLength := by
    intro o ho
    obtain ⟨o', ho', rfl⟩ := Option.map_eq_some_iff.mp ho
    exact natAbs_readBack (hoffset o' ho')
  have htime := readTime_print m.time.isLt hoffset
  have hoctets : octets m.print.toList = m.print.toList := octets_of_isPrinted fun _ => isPrinted_of_mem_print
  exact read_of_parts hoctets (toList_print_moment m) m.time.isLt hread htime

theorem trim_of_isPrinted {s : String} (h : ∀ c ∈ s.toList, isPrinted c = true) : Text.trim s = s := by
  have htrim : Text.trimChars s.toList = s.toList :=
    Text.trimBy_of_forall fun c hc => isSpace_of_isPrinted (h c hc)
  rw [Text.trim, htrim, String.ofList_toList]

end IsoReader
end TenantTables
