import TenantTables.Proofs.Calendar.Iso

namespace TenantTables

open Calendar

def Moment.IsOnMinute (m : Moment) : Prop :=
  ∃ o, m.offset = some o ∧ o % minute = 0 ∧ o.natAbs < dayLength

namespace IsoReader

variable {m : Moment} {o : Int}

theorem toList_printExchange_of_utc (h : m.offset = some 0) : m.printExchange.toList =
    m.date.print.toList ++ 'T' :: ((Moment.printTime m.time.val).toList ++ ['Z']) := by
  have hzero : 0 < second := by decide
  unfold Moment.printExchange
  simp [h, hzero]

theorem printExchange_of_ne_zero (h : m.offset = some o) (ho : o % minute = 0) (hne : o ≠ 0) :
    m.printExchange = m.print := by
  have hlong : ¬ o.natAbs < second := by
    unfold minute second at ho
    unfold second
    omega
  have hshort : o.natAbs % minute = 0 := by
    unfold minute second at ho ⊢
    omega
  unfold Moment.printExchange Moment.print Moment.printWith Moment.printOffset
  rw [h]
  dsimp only
  rw [if_neg hlong, if_pos hshort]
  simp only [String.append_assoc]

theorem readTime_utc {t : Nat} (ht : t < dayLength) :
    readTime ((Moment.printTime t).toList ++ ['Z']) = .ok (fieldsOf t, some 0) := by
  have hzone : ∀ c ∈ ['Z'].head?, isZone c = true := by simp [isZone]
  obtain ⟨htake, hdrop⟩ := split_at_zone (fun _ => isZone_of_mem_printTime (t := t)) hzone
  simp only [isZone] at htake hdrop
  unfold readTime
  dsimp only
  rw [htake, hdrop, readClock?_printTime ht]
  rfl

theorem octets_append (cs ds : List Char) : octets (cs ++ ds) = octets cs ++ octets ds := by
  rw [octets, octets, octets, List.flatMap_append]

theorem read_printExchange (h : m.IsOnMinute) : read m.printExchange = .ok m := by
  obtain ⟨o, hm, ho, hlt⟩ := h
  by_cases hzero : o = 0
  . subst hzero
    have hchars := toList_printExchange_of_utc hm
    have hoctets : octets m.printExchange.toList = m.printExchange.toList := by
      have hprefix : ∀ c ∈ m.date.print.toList ++ 'T' :: (Moment.printTime m.time.val).toList,
          isPrinted c = true := by
        intro c hc
        rcases List.mem_append.mp hc with hc | hc
        . exact isPrinted_of_mem_print_date hc
        rcases List.mem_cons.mp hc with rfl | hc
        . rfl
        . exact isPrinted_of_mem_printTime hc
      rw [hchars, ← List.cons_append, ← List.append_assoc, octets_append, octets_of_isPrinted hprefix]
      rfl
    have hoffset : ∀ o, some (0 : Int) = some o → o.natAbs < dayLength := by
      rintro o ⟨⟩
      exact hlt
    have htime := readTime_utc m.time.isLt
    rw [read_of_parts hoctets hchars m.time.isLt hoffset htime, ← hm]
  . have hminute : ¬ o.natAbs < second := by
      unfold minute second at ho
      unfold second
      omega
    have hoffset : ∀ o, m.offset = some o → o.natAbs < dayLength := by
      rw [hm]
      rintro o ⟨⟩
      exact hlt
    rw [printExchange_of_ne_zero hm ho hzero, read_print_moment m hoffset, hm, Option.map_some, readBack,
      if_neg hminute, ← hm]

end IsoReader
end TenantTables
