-- Dates: the day counts of the FAT driver (fat32.c), the DateStamps that each kind of volume
-- shows for a file (ffs.c, ram_handler.c, vfs.c), and daylight saving (timezone.c). Day counts
-- do not come back, the volumes show different times, and summer time ends late.
import Uaos.Word

namespace uaos.dates

/-- The date of a day of a 400-year era that starts in March: year, month and day. -/
def civil (doe : Nat) : Nat × Nat × Nat :=
  let yoe := (doe - doe / 1460 + doe / 36524 - doe / 146096) / 365
  let doy := doe - (365 * yoe + yoe / 4 - yoe / 100)
  let mp := (5 * doy + 2) / 153
  (yoe, if mp < 10 then mp + 3 else mp - 9, doy - (153 * mp + 2) / 5 + 1)

/-! ## The FAT driver -/

def fat32_civil_from_days (z : Int) : Int × Nat × Nat :=
  let z := z + 719468
  let era := if 0 ≤ z then z / 146097 else -((146096 - z) / 146097)
  let (yoe, m, d) := civil (z - era * 146097).toNat
  (yoe + era * 400 + if m ≤ 2 then 1 else 0, m, d)

/-- The day of the year is `unsigned`: before March it wraps around. -/
def day_of_year (m d : Nat) : Nat :=
  sub32 (u32 (u32 (153 * u32 (m + if 2 < m then 9 else 2 ^ 32 - 3) + 2) / 5 + d)) 1

def fat32_days_from_civil : Int × Nat × Nat → Int
  | (y, m, d) =>
    let y := y - if m ≤ 2 then 1 else 0
    let era := if 0 ≤ y then y / 400 else -((399 - y) / 400)
    let yoe := (y - era * 400).toNat
    era * 146097 + u32 (yoe * 365 + yoe / 4 - yoe / 100 + day_of_year m d) - 719468

/-- Days from 1978 on, minutes and 50ths of a second. -/
structure DateStamp where
  days : Int
  mins : Nat
  ticks : Nat

/-- The 16-bit fields of a FAT date and a FAT time. -/
def fat_stamp (y : Int) (m d hour min sec : Nat) : Nat × Nat :=
  (((y - 1980).toNat <<< 9 ||| m <<< 5 ||| d) % 2 ^ 16,
    (hour <<< 11 ||| min <<< 5 ||| sec / 2) % 2 ^ 16)

def fat32_ds_to_fatstamp (ds : DateStamp) : Nat × Nat :=
  let (y, m, d) := fat32_civil_from_days (ds.days - 2922)
  let secs := u32 (ds.mins * 60 + ds.ticks / 50)
  if y < 1980 then (0, 0) else
  fat_stamp (min y 2107) m d (secs / 3600) (secs / 60 % 60) (secs % 60)

def fat32_fatstamp_to_ds : Nat × Nat → DateStamp
  | (date, time) =>
    let m := date / 32 % 16
    let d := date % 32
    if date = 0 ∨ m = 0 ∨ d = 0 then ⟨0, 0, 0⟩ else
    ⟨fat32_days_from_civil (1980 + date / 512, m, d) + 2922, time / 2048 * 60 + time / 32 % 64,
      time % 32 * 2 * 50⟩

lemma day_of_year_far {m d : Nat} (hm : 1 ≤ m) (hm' : m ≤ 12) (hd : 1 ≤ d) (hd' : d ≤ 31) :
    366 < day_of_year m d ∧ day_of_year m d < 2 ^ 31 := by
  have hq : 366 < u32 (153 * u32 (m + if 2 < m then 9 else 2 ^ 32 - 3) + 2) / 5 ∧
      u32 (153 * u32 (m + if 2 < m then 9 else 2 ^ 32 - 3) + 2) / 5 < 2 ^ 30 := by
    revert m
    decide
  unfold day_of_year
  generalize u32 (153 * u32 (m + if 2 < m then 9 else 2 ^ 32 - 3) + 2) / 5 = q at hq
  unfold sub32 u32
  omega

lemma civil_spec {doe yoe m d : Nat} (h : doe < 146097) (hc : civil doe = (yoe, m, d)) :
    yoe < 400 ∧ (1 ≤ m ∧ m ≤ 12) ∧ (1 ≤ d ∧ d ≤ 31) ∧
      yoe * 365 ≤ doe ∧ doe ≤ yoe * 365 + yoe / 4 - yoe / 100 + 366 := by
  simp only [civil, Prod.mk.injEq] at hc
  obtain ⟨hy, hm, hd⟩ := hc
  rw [hy] at hm hd
  have hk : doe / 1460 ≤ yoe / 4 + 1 := by omega
  have hq : yoe / 100 ≤ doe / 36524 := by omega
  have hge : yoe * 365 ≤ doe := by omega
  have hle : doe - (365 * yoe + yoe / 4 - yoe / 100) ≤ 366 := by omega
  generalize doe - (365 * yoe + yoe / 4 - yoe / 100) = doy at hm hd hle
  refine ⟨by omega, ?_, by omega, hge, by omega⟩
  split at hm <;> omega

/-- A day's date: where it lies in its era, and fields in range. -/
lemma civil_from_days_spec (z : Int) : ∃ (era : Int) (yoe m d : Nat),
    fat32_civil_from_days z = (yoe + era * 400 + if m ≤ 2 then 1 else 0, m, d) ∧ yoe < 400 ∧
      (1 ≤ m ∧ m ≤ 12) ∧ (1 ≤ d ∧ d ≤ 31) ∧
      era * 146097 + yoe * 365 ≤ z + 719468 ∧
      z + 719468 ≤ era * 146097 + (yoe * 365 + yoe / 4 - yoe / 100 + 366 : Nat) := by
  obtain ⟨era, hera⟩ : ∃ era, era = if 0 ≤ z + 719468 then (z + 719468) / 146097 else
    -((146096 - (z + 719468)) / 146097) := ⟨_, rfl⟩
  obtain ⟨doe, hdoe⟩ : ∃ doe, doe = (z + 719468 - era * 146097).toNat := ⟨_, rfl⟩
  obtain ⟨yoe, m, d, hc⟩ : ∃ yoe m d, civil doe = (yoe, m, d) := ⟨_, _, _, rfl⟩
  have hz : z + 719468 = era * 146097 + doe ∧ doe < 146097 := by
    split at hera <;> omega
  obtain ⟨hy, hm, hd, hge, hle⟩ := civil_spec hz.2 hc
  refine ⟨era, yoe, m, d, ?_, hy, hm, hd, by omega, by omega⟩
  simp only [fat32_civil_from_days, ← hera, ← hdoe, hc]

lemma days_of_civil (z : Int) : fat32_days_from_civil (fat32_civil_from_days z) ≠ z := by
  obtain ⟨era, yoe, m, d, hciv, hy, hm, hd, hge, hle⟩ := civil_from_days_spec z
  have hfar := day_of_year_far hm.1 hm.2 hd.1 hd.2
  have hera : (if 0 ≤ (yoe + era * 400 : Int) then (yoe + era * 400 : Int) / 400 else
      -((399 - (yoe + era * 400)) / 400)) = era := by
    split <;> omega
  rw [hciv, fat32_days_from_civil]
  simp only [add_sub_cancel_right, hera, Int.toNat_natCast]
  unfold u32
  omega

lemma fat_date_fields {y m d : Nat} (hy : y < 128) (hm : m < 16) (hd : d < 32) :
    (y <<< 9 ||| m <<< 5 ||| d) % 2 ^ 16 = y * 512 + m * 32 + d := by
  have hmd : m <<< 5 ||| d = m * 32 + d := by
    rw [← Nat.shiftLeft_add_eq_or_of_lt hd, Nat.shiftLeft_eq]
  rw [Nat.or_assoc, hmd, ← Nat.shiftLeft_add_eq_or_of_lt (by omega), Nat.shiftLeft_eq]
  omega

/-- No day count and no date comes back from the conversions. -/
theorem no_day_comes_back (z : Int) (t : Int × Nat × Nat) (k : Fin 46751) (mins ticks : Nat) :
    fat32_days_from_civil (fat32_civil_from_days z) ≠ z ∧
    fat32_civil_from_days (fat32_days_from_civil t) ≠ t ∧ (fat32_fatstamp_to_ds
      (fat32_ds_to_fatstamp ⟨730 + k, mins, ticks⟩)).days ≠ 730 + k := by
  refine ⟨days_of_civil z, fun h => ?_, ?_⟩
  · apply days_of_civil (fat32_days_from_civil t)
    rw [h]
  · obtain ⟨era, yoe, m, d, hciv, hy, hm, hd, hge, -⟩ := civil_from_days_spec (730 + k - 2922)
    have hne := days_of_civil (730 + k - 2922)
    simp only [fat32_ds_to_fatstamp, hciv] at hne ⊢
    generalize hyear : (yoe + era * 400 + if m ≤ 2 then 1 else 0 : Int) = y at hne ⊢
    have hlast : y ≤ 2107 := by
      split at hyear <;> omega
    by_cases hearly : y < 1980
    · simp only [hearly, if_true]
      simp only [fat32_fatstamp_to_ds, true_or, if_true]
      omega
    · obtain ⟨n, rfl⟩ : ∃ n : Nat, y = 1980 + n := ⟨(y - 1980).toNat, by omega⟩
      simp only [hearly, if_false, min_eq_left hlast, fat_stamp, add_sub_cancel_left,
        Int.toNat_natCast, fat_date_fields (show n < 128 by omega) (show m < 16 by omega)
          (show d < 32 by omega)]
      have hm' : (n * 512 + m * 32 + d) / 32 % 16 = m := by omega
      have hd' : (n * 512 + m * 32 + d) % 32 = d := by omega
      have hy' : ((n * 512 + m * 32 + d : Nat) : Int) / 512 = n := by omega
      rw [fat32_fatstamp_to_ds, hm', hd', hy', if_neg (by omega)]
      dsimp only
      omega

/-- The first of March 2000 comes back as a day of the next year. -/
theorem a_march_day_is_moved :
    fat32_civil_from_days 11017 = (2000, 3, 1) ∧ fat32_days_from_civil (2000, 3, 1) = 11384 := by
  decide

/-! ## The modification time that each volume shows -/

structure RtcDateTime where
  year : UInt16
  (month day hour min sec : UInt8)

def is_leap (y : Nat) : Bool := y % 4 == 0 && y % 100 != 0 || y % 400 == 0

def year_days (first year : Nat) : Nat :=
  ((List.range (year - first)).map fun i => if is_leap (first + i) then 366 else 365).sum

def days_in (year m : Nat) : Nat :=
  [31, 28, 31, 30, 31, 30, 31, 31, 30, 31, 30, 31].getD (m - 1) 0 +
    if m = 2 ∧ is_leap year then 1 else 0

def month_days (year month : Nat) : Nat :=
  ((List.range (min (month - 1) 12)).map fun i => days_in year (i + 1)).sum

def ffs_now (t : RtcDateTime) : DateStamp :=
  ⟨(year_days 1978 t.year.toNat + month_days t.year.toNat t.month.toNat + (t.day.toNat - 1) : Nat),
    t.hour.toNat * 60 + t.min.toNat, t.sec.toNat * 50⟩

def fat32_now (t : RtcDateTime) : Nat × Nat :=
  fat_stamp (min (max t.year.toNat 1980) 2107) t.month.toNat t.day.toNat t.hour.toNat t.min.toNat
    t.sec.toNat

def epoch_to_datestamp (mtime : UInt32) : DateStamp :=
  let secs := max mtime.toNat 252460800 - 252460800
  ⟨secs / 86400, secs % 86400 / 60, secs % 60 * 50⟩

/-- The branch of a volume with a handler, which has the stamp from the packets. -/
def VFS_GetMtime (ds : DateStamp) : Int :=
  if 2922 < ds.days then ((ds.days - 2922) * 86400 + ds.mins * 60 + ds.ticks / 50) % 2 ^ 32 else 0

/-- The seconds from 1970 to the date of a stamp, whose days count from 1978. -/
def instant (ds : DateStamp) : Int :=
  (ds.days + 2922) * 86400 + ds.mins * 60 + ds.ticks / 50

/-- What a RAM, a FAT and an FFS volume show for a file, by packets and by the VFS call. -/
def views (t : RtcDateTime) (epoch : UInt32) : List Int :=
  [instant (epoch_to_datestamp epoch), epoch.toNat,
    instant (fat32_fatstamp_to_ds (fat32_now t)), VFS_GetMtime (fat32_fatstamp_to_ds (fat32_now t)),
    instant (ffs_now t), VFS_GetMtime (ffs_now t)]

/-- The volumes never all show the same time. -/
theorem volumes_never_agree (t : RtcDateTime) (epoch : UInt32) :
    ¬ ∃ n, ∀ v ∈ views t epoch, v = n := by
  rintro ⟨n, h⟩
  have hpkt : instant (ffs_now t) = n := h _ (by simp [views])
  have hvfs : VFS_GetMtime (ffs_now t) = n := h _ (by simp [views])
  have hdays : 0 ≤ (ffs_now t).days := Int.natCast_nonneg _
  unfold instant at hpkt
  unfold VFS_GetMtime at hvfs
  split at hvfs <;> omega

/-- New Year 2026: an FFS volume shows it by packets, and 1 January 2010 by the VFS call. -/
theorem new_year_is_shown_twice : instant (ffs_now ⟨2026, 1, 1, 0, 0, 0⟩) = 1767225600 ∧
    VFS_GetMtime (ffs_now ⟨2026, 1, 1, 0, 0, 0⟩) = 1262304000 := by
  decide

/-! ## Daylight saving -/

structure Rule where
  (month week dow hour : Nat)

structure TzInfo where
  (utc_offset_min dst_offset_min : Int)
  (dst_start dst_end : Rule)

/-- The zones with daylight saving; those with the same fields stand here once. -/
def k_zones : List TzInfo :=
  [⟨600, 60, ⟨10, 5, 0, 2⟩, ⟨4, 1, 0, 3⟩⟩, ⟨600, 60, ⟨10, 1, 0, 2⟩, ⟨4, 1, 0, 3⟩⟩,
    ⟨570, 30, ⟨10, 5, 0, 2⟩, ⟨4, 1, 0, 3⟩⟩, ⟨720, 60, ⟨9, 5, 0, 2⟩, ⟨4, 1, 0, 3⟩⟩,
    ⟨0, 60, ⟨3, 5, 0, 1⟩, ⟨10, 5, 0, 2⟩⟩, ⟨60, 60, ⟨3, 5, 0, 2⟩, ⟨10, 5, 0, 3⟩⟩,
    ⟨120, 60, ⟨3, 5, 0, 3⟩, ⟨10, 5, 0, 4⟩⟩, ⟨-300, 60, ⟨3, 2, 0, 2⟩, ⟨11, 1, 0, 2⟩⟩,
    ⟨-360, 60, ⟨3, 2, 0, 2⟩, ⟨11, 1, 0, 2⟩⟩, ⟨-420, 60, ⟨3, 2, 0, 2⟩, ⟨11, 1, 0, 2⟩⟩,
    ⟨-480, 60, ⟨3, 2, 0, 2⟩, ⟨11, 1, 0, 2⟩⟩, ⟨-540, 60, ⟨3, 2, 0, 2⟩, ⟨11, 1, 0, 2⟩⟩]

/-- In the last week the loop adds at most four weeks to the first matching day. -/
def transition_epoch (year : Nat) (r : Rule) (offset_min : Int) : Nat :=
  let days := year_days 1970 year + month_days year r.month
  let day1 := days + (r.dow + 7 - (days + 4) % 7) % 7
  let dim := days_in year r.month
  let target_day :=
    if r.week = 5 then (fun d => if d + 7 < days + dim then d + 7 else d)^[4] day1
    else if days + dim ≤ day1 + (r.week - 1) * 7 then day1 else day1 + (r.week - 1) * 7
  ((target_day * 86400 + r.hour * 3600 - offset_min * 60 : Int) % 2 ^ 32).toNat

/-- The year of ntp_unix_to_datetime. -/
def year_of (unix_ts : Nat) : Nat :=
  let z := unix_ts / 86400 + 719468
  let (yoe, m, _) := civil (z % 146097)
  yoe + z / 146097 * 400 + if m ≤ 2 then 1 else 0

def tz_is_dst (tz : TzInfo) (t : Nat) : Bool :=
  if tz.dst_offset_min = 0 then false else
  let s := transition_epoch (year_of t) tz.dst_start tz.utc_offset_min
  let e := transition_epoch (year_of t) tz.dst_end tz.utc_offset_min
  if s < e then decide (s ≤ t ∧ t < e) else decide (s ≤ t ∨ t < e)

/-- Before the change in spring the wall clock shows standard time, -/
def start_at (tz : TzInfo) (year : Nat) : Nat :=
  transition_epoch year tz.dst_start tz.utc_offset_min

/-- and before the change in autumn it shows summer time. -/
def end_at (tz : TzInfo) (year : Nat) : Nat :=
  transition_epoch year tz.dst_end (tz.utc_offset_min + tz.dst_offset_min)

def ChangesRight (tz : TzInfo) (year : Nat) : Prop :=
  ∀ t < 2 ^ 32, year_of t = year →
    (tz_is_dst tz (t - 1) ≠ tz_is_dst tz t ↔ t = start_at tz year ∨ t = end_at tz year)

/-- The end that the code computes, with the clock in standard time. -/
def late_end (tz : TzInfo) (year : Nat) : Nat :=
  transition_epoch year tz.dst_end tz.utc_offset_min

lemma emod_sub_of_le {x k : Int} (hk : 0 < k) (h : k ≤ x % 2 ^ 32) :
    (x - k) % 2 ^ 32 = x % 2 ^ 32 - k := by
  have hlt : x % 2 ^ 32 < 2 ^ 32 := Int.emod_lt_of_pos x (by decide)
  rw [Int.sub_emod, Int.emod_eq_of_lt hk.le (by omega), Int.emod_eq_of_lt (by omega) (by omega)]

/-- Summer time ends before the end that the code computes, by as much as the clock is put back. -/
lemma end_at_lt_late_end {tz : TzInfo} {year : Nat} (hdst : 0 < tz.dst_offset_min)
    (hroom : tz.dst_offset_min * 60 ≤ late_end tz year) : end_at tz year < late_end tz year := by
  unfold end_at
  unfold late_end at *
  unfold transition_epoch at *
  dsimp only at *
  rw [add_mul, ← sub_sub, emod_sub_of_le (by omega) (by omega)]
  omega

/-- Before the end that it computes the code sees summer time. -/
lemma dst_until_late_end {tz : TzInfo} {t : Nat} (hdst : tz.dst_offset_min ≠ 0)
    (hlate : t < late_end tz (year_of t)) (hstart : start_at tz (year_of t) ≤ t ∨
      late_end tz (year_of t) ≤ start_at tz (year_of t)) : tz_is_dst tz t = true := by
  unfold tz_is_dst
  unfold start_at late_end at *
  rw [if_neg hdst]
  dsimp only
  split
  · simp only [decide_eq_true_eq]
    omega
  · simp only [decide_eq_true_eq]
    omega

/-- What the calendar gives: the right end and the second before it are in the year and behind the
start, or summer time spans the new year. -/
lemma end_in_year : ∀ tz ∈ k_zones, ∀ i : Fin 136, 0 < tz.dst_offset_min ∧
    tz.dst_offset_min * 60 ≤ late_end tz (1970 + i) ∧ end_at tz (1970 + i) < 2 ^ 32 ∧
    year_of (end_at tz (1970 + i)) = 1970 + i ∧ year_of (end_at tz (1970 + i) - 1) = 1970 + i ∧
    (start_at tz (1970 + i) < end_at tz (1970 + i) ∨
      late_end tz (1970 + i) ≤ start_at tz (1970 + i)) := by
  decide +kernel

/-- Summer time ends late in every zone and every year of the 32-bit clock. -/
theorem summer_time_never_ends_right (tz : TzInfo) (htz : tz ∈ k_zones) (i : Fin 136) :
    ¬ ChangesRight tz (1970 + i) := by
  obtain ⟨hdst, hroom, hlt, hyear, hbefore, hstart⟩ := end_in_year tz htz i
  have hlate := end_at_lt_late_end hdst hroom
  have hend : tz_is_dst tz (end_at tz (1970 + i)) = true := by
    apply dst_until_late_end hdst.ne' <;> rw [hyear] <;> omega
  have hprev : tz_is_dst tz (end_at tz (1970 + i) - 1) = true := by
    apply dst_until_late_end hdst.ne' <;> rw [hbefore] <;> omega
  intro h
  exact (h _ hlt hyear).mpr (.inr rfl) (hprev.trans hend.symm)

/-- In London in 2025 it is still summer time an hour after the change at two o'clock. -/
theorem london_is_late : end_at ⟨0, 60, ⟨3, 5, 0, 1⟩, ⟨10, 5, 0, 2⟩⟩ 2025 = 1761440400 ∧
    tz_is_dst ⟨0, 60, ⟨3, 5, 0, 1⟩, ⟨10, 5, 0, 2⟩⟩ 1761440400 = true := by
  decide +kernel

theorem hobart_is_late_in_1990 :
    ¬ ChangesRight ⟨600, 60, ⟨10, 1, 0, 2⟩, ⟨4, 1, 0, 3⟩⟩ (1970 + (20 : Fin 136)) :=
  summer_time_never_ends_right _ (by simp [k_zones]) 20

end uaos.dates
