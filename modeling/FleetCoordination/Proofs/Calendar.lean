import Mathlib.Tactic.IntervalCases
import FleetCoordination.Timestamp
/-!
# The calendar

Dates count their years from March, so that a leap day is the last of its year. An era of four
hundred years has four centuries of twenty-five cycles of four years; only its last century has
a leap day in its last year.
-/
namespace FleetCoordination.Timestamp

/-- The year that a day of an era lies in. -/
def yearOfEra (d : Int) : Int := (d - d / 1460 + d / 36524 - d / 146096) / 365

/-- The day of its year that a day of an era is. -/
def dayOfYear (d : Int) : Int := d - (365 * yearOfEra d + yearOfEra d / 4 - yearOfEra d / 100)

/-- A day of an era by its century, its cycle of four years and its place in that. -/
structure Placed (d century cycle place : Int) : Prop where
  split : d = 36524 * century + 1461 * cycle + place
  centuries : 0 ≤ century ∧ century ≤ 3
  cycles : 0 ≤ cycle ∧ cycle ≤ 24
  places : 0 ≤ place ∧ place ≤ 1460
  last : cycle = 24 → place = 1460 → century = 3

theorem exists_placed {d : Int} (h₀ : 0 ≤ d) (h₁ : d ≤ 146096) :
    ∃ century cycle place, Placed d century cycle place := by
  by_cases last : d = 146096
  · exact ⟨3, 24, 1460, by omega, by omega, by omega, by omega, by omega⟩
  · exact ⟨d / 36524, d % 36524 / 1461, d % 36524 % 1461, by omega, by omega, by omega, by omega, by omega⟩

namespace Placed
variable {d century cycle place : Int}

theorem yearOfEra_eq (h : Placed d century cycle place) :
    yearOfEra d = 100 * century + 4 * cycle + min (place / 365) 3 := by
  obtain ⟨split, centuries, cycles, places, last⟩ := h
  have fours : d / 1460 = 25 * century + cycle + (24 * century + cycle + place) / 1460 := by omega
  unfold yearOfEra
  by_cases final : d = 146096
  · have placed : century = 3 ∧ cycle = 24 ∧ place = 1460 := by omega
    obtain ⟨rfl, rfl, rfl⟩ := placed
    subst final
    rfl
  · have hundreds : d / 36524 = century := by omega
    have eras : d / 146096 = 0 := by omega
    omega

theorem dayOfYear_eq (h : Placed d century cycle place) : dayOfYear d = place - 365 * min (place / 365) 3 := by
  have year := h.yearOfEra_eq
  obtain ⟨split, centuries, cycles, places, -⟩ := h
  have fours : yearOfEra d / 4 = 25 * century + cycle := by omega
  have hundreds : yearOfEra d / 100 = century := by omega
  unfold dayOfYear
  omega

end Placed

section Era
variable {d : Int} (h₀ : 0 ≤ d) (h₁ : d ≤ 146096)
include h₀ h₁

theorem yearOfEra_bounds : 0 ≤ yearOfEra d ∧ yearOfEra d ≤ 399 := by
  obtain ⟨century, cycle, place, placed⟩ := exists_placed h₀ h₁
  have year := placed.yearOfEra_eq
  obtain ⟨split, centuries, cycles, places, -⟩ := placed
  omega

theorem dayOfYear_bounds : 0 ≤ dayOfYear d ∧ dayOfYear d ≤ 365 := by
  obtain ⟨century, cycle, place, placed⟩ := exists_placed h₀ h₁
  have day := placed.dayOfYear_eq
  have places := placed.places
  omega

/-- A year of 366 days ends on a leap day. -/
theorem isLeap_of_dayOfYear (last : dayOfYear d = 365) (era : Int) : isLeap (yearOfEra d + era * 400 + 1) = true := by
  obtain ⟨century, cycle, place, placed⟩ := exists_placed h₀ h₁
  have day := placed.dayOfYear_eq
  have year := placed.yearOfEra_eq
  obtain ⟨-, centuries, cycles, places, final⟩ := placed
  have fours : (yearOfEra d + era * 400 + 1) % 4 = 0 := by omega
  have hundreds : (yearOfEra d + era * 400 + 1) % 100 ≠ 0 ∨ (yearOfEra d + era * 400 + 1) % 400 = 0 := by omega
  simpa [isLeap, Int.fmod_eq_emod_of_nonneg, fours] using hundreds

end Era

/-! ## Dates -/

section Date
variable (days : Int)

/-- The day of its era that a day is. -/
def dayOfEra : Int := days + 719468 - (days + 719468).fdiv 146097 * 146097

theorem dayOfEra_bounds : 0 ≤ dayOfEra days ∧ dayOfEra days ≤ 146096 := by
  unfold dayOfEra
  rw [Int.fdiv_eq_ediv_of_nonneg _ (by decide)]
  omega

theorem date_eq : date days =
    (let shifted := (5 * dayOfYear (dayOfEra days) + 2) / 153
    let month := if shifted < 10 then shifted + 3 else shifted - 9
    let year := yearOfEra (dayOfEra days) + (days + 719468).fdiv 146097 * 400
    (if month ≤ 2 then year + 1 else year, month.toNat,
      (dayOfYear (dayOfEra days) - (153 * shifted + 2) / 5 + 1).toNat)) := rfl

/-- A date is one of the calendar. -/
theorem date_mem : 1 ≤ (date days).2.1 ∧ (date days).2.1 ≤ 12 ∧ 1 ≤ (date days).2.2 ∧
    (date days).2.2 ≤ daysInMonth (date days).1 (date days).2.1 := by
  obtain ⟨h₀, h₁⟩ := dayOfEra_bounds days
  obtain ⟨first, last⟩ := dayOfYear_bounds h₀ h₁
  have leap := fun longest => isLeap_of_dayOfYear h₀ h₁ longest ((days + 719468).fdiv 146097)
  rw [date_eq]
  generalize dayOfYear (dayOfEra days) = day at *
  generalize yearOfEra (dayOfEra days) + (days + 719468).fdiv 146097 * 400 = year at *
  generalize known : (5 * day + 2) / 153 = shifted
  have months : 0 ≤ shifted ∧ shifted ≤ 11 := by omega
  by_cases february : shifted = 11
  · subst february
    have bound : (day - 337 + 1).toNat ≤ if isLeap (year + 1) = true then 29 else 28 := by
      by_cases longest : day = 365
      · rw [if_pos (leap longest), longest]
        decide
      · split <;> omega
    refine ⟨by simp, by simp, ?_, bound⟩
    simp
    omega
  · obtain ⟨low, high⟩ := months
    have lower : shifted ≤ 10 := by omega
    interval_cases shifted <;> simp [daysInMonth] <;> omega

/-- The day of a date is the day that it was made of. -/
theorem dayNumber_date : dayNumber (date days).1 (date days).2.1 (date days).2.2 = days := by
  obtain ⟨h₀, h₁⟩ := dayOfEra_bounds days
  obtain ⟨first, last⟩ := dayOfYear_bounds h₀ h₁
  obtain ⟨y₀, y₁⟩ := yearOfEra_bounds h₀ h₁
  have era : dayOfEra days = days + 719468 - (days + 719468).fdiv 146097 * 146097 := rfl
  have split : dayOfYear (dayOfEra days) = dayOfEra days - (365 * yearOfEra (dayOfEra days) +
    yearOfEra (dayOfEra days) / 4 - yearOfEra (dayOfEra days) / 100) := rfl
  rw [date_eq, dayNumber]
  dsimp only
  generalize dayOfYear (dayOfEra days) = day at *
  generalize dayOfEra days = d at *
  generalize yearOfEra d = year at *
  generalize (days + 719468).fdiv 146097 = e at *
  generalize known : (5 * day + 2) / 153 = shifted at *
  have months : 0 ≤ shifted ∧ shifted ≤ 11 := by omega
  have quotient : (year + e * 400).fdiv 400 = e := by
    rw [Int.fdiv_eq_ediv_of_nonneg _ (by decide)]
    omega
  have left : year + e * 400 - e * 400 = year := by omega
  -- the months from January on belong to the year before
  by_cases early : shifted < 10
  · have month : ¬shifted + 3 ≤ 2 ∧ ¬(shifted + 3).toNat ≤ 2 := by omega
    have back : (((shifted + 3).toNat + 9) % 12 : Nat) = shifted.toNat := by omega
    simp only [early, if_true, month, if_false, back, quotient, left]
    omega
  · have month : shifted - 9 ≤ 2 ∧ (shifted - 9).toNat ≤ 2 := by omega
    have back : (((shifted - 9).toNat + 9) % 12 : Nat) = shifted.toNat := by omega
    simp only [early, if_false, month, if_true, back, Int.add_sub_cancel, quotient, left]
    omega

end Date

end FleetCoordination.Timestamp
