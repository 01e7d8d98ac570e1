-- The calendar of utility.library (utility_lib.c): seconds since 1 January 1978 and the fields of
-- a ClockData. Every 32-bit time comes back from its fields, and CheckDate accepts the fields of
-- such a time whatever their weekday is.
import Uaos.Word

namespace uaos.utility

/-- The seven words of a ClockData. -/
structure ClockData where
  sec : Nat
  min : Nat
  hour : Nat
  mday : Nat
  month : Nat
  year : Nat
  wday : Nat
deriving DecidableEq

/-- The years before a day, counted from March of the year 0. -/
def year_of (days : Nat) : Nat :=
  let adjusted := days - (days + 1) / 146097
  let adjusted := adjusted + adjusted / 36524
  (adjusted - (adjusted + 1) / 1461) / 365

def util_amiga2date (seconds : Nat) : ClockData :=
  let days := seconds / 60 / 60 / 24 + 0xb05d6
  let year := year_of days
  let diy := sub32 (sub32 (u32 (sub32 days (year / 400) + year / 100)) (year / 4)) (year * 365)
  let month := diy % 153 * 10 / 305 + diy / 153 * 5
  { sec := seconds % 60
    min := seconds / 60 % 60
    hour := seconds / 60 / 60 % 24
    mday := sub32 (diy + 1) ((month * 306 + 5) / 10) % 2 ^ 16
    month := (month + 2) % 12 + 1
    year := year + (month + 2) / 12
    wday := (days + 3) % 7 }

def util_date2amiga (f : ClockData) : Nat :=
  let month := f.month + 9
  let year := sub32 (f.year + month / 12) 1
  let days := u32 (sub32 (year * 365 + year / 4) (year / 100) + year / 400)
  let days := sub32 (days + (month % 12 * 306 + 5) / 10 + f.mday) 1
  let days := sub32 days 0xb05d6
  u32 (u32 (u32 (days * 24 + f.hour) * 60 + f.min) * 60 + f.sec)

/-- The weekday is not compared. -/
def util_CheckDate (f : ClockData) : Nat :=
  let seconds := util_date2amiga f
  if { util_amiga2date seconds with wday := f.wday } = f then seconds else 0

lemma date2amiga_wday (f : ClockData) (wday : Nat) :
    util_date2amiga { f with wday := wday } = util_date2amiga f := rfl

/-- In years of 365 days and a leap day every fourth year. -/
lemma four_years (x : Nat) {year : Nat} (hy : year = (x - (x + 1) / 1461) / 365) :
    year * 365 + year / 4 ≤ x ∧
      (x < year * 365 + year / 4 + 365 ∨ x = year * 365 + year / 4 + 365 ∧ year % 4 = 3) := by
  have hcut : (x + 1) % 1461 = 0 ∨ (1 ≤ (x + 1) % 1461 ∧ (x + 1) % 1461 ≤ 365) ∨
      (366 ≤ (x + 1) % 1461 ∧ (x + 1) % 1461 ≤ 730) ∨
      (731 ≤ (x + 1) % 1461 ∧ (x + 1) % 1461 ≤ 1095) ∨ 1096 ≤ (x + 1) % 1461 := by omega
  rcases hcut with h | h | h | h | h <;> omega

/-- The year of a day that a 32-bit time can have. -/
lemma year_of_spec (days : Nat) (hlow : 0xb05d6 ≤ days) (hhigh : days ≤ 772101) :
    ∃ year start, year_of days = year ∧ year ≤ 2113 ∧
      year * 365 + year / 4 + year / 400 = start + year / 100 ∧ start ≤ days ∧
      days ≤ start + 365 := by
  obtain ⟨a, ha⟩ : ∃ a, a = days - (days + 1) / 146097 := ⟨_, rfl⟩
  obtain ⟨b, hb⟩ : ∃ b, b = a + a / 36524 := ⟨_, rfl⟩
  obtain ⟨year, hy⟩ : ∃ year, year = (b - (b + 1) / 1461) / 365 := ⟨_, rfl⟩
  obtain ⟨h1, h2⟩ := four_years b hy
  refine ⟨year, year * 365 + year / 4 + year / 400 - year / 100, by rw [hy, hb, ha]; rfl, ?_⟩
  clear hy
  -- 2000 has a leap day and 2100 has none
  have h3 : (days + 1) / 146097 = 4 ∧ a / 36524 = 19 ∨ (days + 1) / 146097 = 5 ∧
      (a / 36524 = 19 ∨ a / 36524 = 20 ∨ a / 36524 = 21) := by omega
  have h4 : year / 100 = 19 ∧ year / 400 = 4 ∨ year / 100 = 20 ∧ year / 400 = 5 ∨
      year / 100 = 21 ∧ year / 400 = 5 := by omega
  rcases h3 with h3 | ⟨h3, h5 | h5 | h5⟩ <;> rcases h4 with h4 | h4 | h4 <;> omega

/-- The month of a day of the year that begins in March. -/
lemma month_of_spec (diy : Nat) (h : diy ≤ 365) :
    ∃ month, diy % 153 * 10 / 305 + diy / 153 * 5 = month ∧
    month ≤ 11 ∧ (month * 306 + 5) / 10 ≤ diy ∧ diy < (month * 306 + 5) / 10 + 31 :=
  ⟨_, rfl, by omega⟩

lemma date2amiga_amiga2date {s : Nat} (hs : s < 2 ^ 32) :
    util_date2amiga (util_amiga2date s) = s := by
  obtain ⟨days, hdays⟩ : ∃ days, days = s / 60 / 60 / 24 + 0xb05d6 := ⟨_, rfl⟩
  obtain ⟨year, start, hyear, hle, hstart, hlow, hhigh⟩ :=
    year_of_spec days (by omega) (by omega)
  have hdiy : sub32 (sub32 (u32 (sub32 days (year / 400) + year / 100)) (year / 4)) (year * 365) =
      days - start := by
    unfold sub32 u32
    omega
  obtain ⟨month, hmonth, hm, hm1, hm2⟩ := month_of_spec (days - start) (by omega)
  unfold util_date2amiga util_amiga2date
  simp only [← hdays, hyear, hdiy, hmonth]
  have hday : sub32 (days - start + 1) ((month * 306 + 5) / 10) % 2 ^ 16 =
      days - start + 1 - (month * 306 + 5) / 10 := by
    unfold sub32 u32
    omega
  -- January and February are counted to the year before
  have hcarry : (month + 2) / 12 + ((month + 2) % 12 + 1 + 9) / 12 = 1 := by omega
  have hyears : sub32 (year + (month + 2) / 12 + ((month + 2) % 12 + 1 + 9) / 12) 1 = year := by
    rw [Nat.add_assoc, hcarry, sub32_of_le (by omega) (by omega), Nat.add_sub_cancel]
  have hmonths : ((month + 2) % 12 + 1 + 9) % 12 = month := by omega
  have hyeardays : u32 (sub32 (year * 365 + year / 4) (year / 100) + year / 400) = start := by
    unfold sub32 u32
    omega
  rw [hyears, hmonths, hyeardays, hday]
  unfold sub32 u32
  omega

/-- Every time comes back from its fields, 1 January 1978 is a Sunday, and CheckDate accepts the
fields that a time other than 0 has, whatever the weekday is. -/
theorem every_time_comes_back : (∀ s : UInt32, util_date2amiga (util_amiga2date s.toNat) = s.toNat ∧
      (util_amiga2date s.toNat).wday = s.toNat / 86400 % 7) ∧
    ∀ f, util_CheckDate f ≠ 0 ↔
      ∃ s : UInt32, s ≠ 0 ∧ { util_amiga2date s.toNat with wday := f.wday } = f := by
  refine ⟨fun s => ⟨date2amiga_amiga2date s.toNat_lt, ?_⟩, fun f => ⟨fun h => ?_, ?_⟩⟩
  · simp only [util_amiga2date]
    omega
  · have hlt : util_date2amiga f < 2 ^ 32 := u32_lt _
    simp only [util_CheckDate, ne_eq, ite_eq_right_iff, not_forall] at h
    obtain ⟨hf, h⟩ := h
    refine ⟨.ofNat (util_date2amiga f), fun h0 => h ?_, ?_⟩
    · rw [← UInt32.toNat_ofNat_of_lt' hlt, h0]
      rfl
    · rwa [UInt32.toNat_ofNat_of_lt' hlt]
  · rintro ⟨s, hs, hf⟩
    have hsame : util_date2amiga f = s.toNat := by
      rw [← hf, date2amiga_wday, date2amiga_amiga2date s.toNat_lt]
    simp only [util_CheckDate, hsame]
    rw [if_pos hf]
    exact fun h0 => hs (UInt32.toNat_inj.mp h0)

/-- One second after the epoch, on a Wednesday. -/
def wrong_weekday : ClockData := ⟨1, 0, 0, 1, 1, 1978, 3⟩

/-- A date with a wrong weekday is accepted, and no time has such fields. -/
theorem a_wrong_weekday_is_accepted : util_CheckDate wrong_weekday = 1 ∧
    ∀ s : UInt32, util_amiga2date s.toNat ≠ wrong_weekday := by
  refine ⟨by decide, fun s hs => ?_⟩
  have hback := date2amiga_amiga2date s.toNat_lt
  rw [hs] at hback
  rw [← hback] at hs
  revert hs
  decide

end uaos.utility
