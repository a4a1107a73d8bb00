import ChipEvolve.FixedWidth
import ChipEvolve.Store.Methods
import Mathlib.Data.List.Sort
import Mathlib.Data.String.Basic

/-!
# Times as the database holds them

The other modules of the store count microseconds.  The database holds the texts
`datetime.isoformat` writes for UTC and compares those, byte by byte: in the
selection of expired leases and wherever rows are put in order of time.
-/

namespace ChipEvolve

open FixedWidth

/-! ## The calendar -/

def isLeap (year : ℕ) : Bool := year % 4 = 0 && (year % 100 ≠ 0 || year % 400 = 0)

def daysInMonth (year month : ℕ) : ℕ :=
  if month = 2 then (if isLeap year then 29 else 28)
  else if month = 4 ∨ month = 6 ∨ month = 9 ∨ month = 11 then 30
  else 31

/-- The days before January 1st of the year. -/
def daysBeforeYear (year : ℕ) : ℕ :=
  (year - 1) * 365 + (year - 1) / 4 - (year - 1) / 100 + (year - 1) / 400

/-- The days of the year before the first of the month. -/
def daysBeforeMonth (year month : ℕ) : ℕ :=
  ((List.range (month - 1)).map fun m ↦ daysInMonth year (m + 1)).sum

/-- A `datetime` whose `tzinfo` is `timezone.utc`. -/
structure DateTime where
  year : ℕ
  month : ℕ
  day : ℕ
  hour : ℕ
  minute : ℕ
  second : ℕ
  microsecond : ℕ
  yearValid : 1 ≤ year ∧ year ≤ 9999
  monthValid : 1 ≤ month ∧ month ≤ 12
  dayValid : 1 ≤ day ∧ day ≤ daysInMonth year month
  hourValid : hour < 24
  minuteValid : minute < 60
  secondValid : second < 60
  microsecondValid : microsecond < 1000000

namespace DateTime

def toordinal (a : DateTime) : ℕ :=
  daysBeforeYear a.year + daysBeforeMonth a.year a.month + a.day

def secondOfDay (a : DateTime) : ℕ := (a.hour * 60 + a.minute) * 60 + a.second

/-- The moment, in microseconds. -/
def instant (a : DateTime) : Timestamp :=
  (((a.toordinal * 86400 + a.secondOfDay) * 1000000 + a.microsecond : ℕ) : Int)

/-- The fraction of a second, left out when it is zero, and the offset. -/
def suffix (microsecond : ℕ) : List Char :=
  (if microsecond = 0 then [] else '.' :: digits 6 microsecond) ++ "+00:00".toList

def isoformat (a : DateTime) : String :=
  String.ofList (digits 4 a.year ++ '-' :: (digits 2 a.month ++ '-' :: (digits 2 a.day ++
    'T' :: (digits 2 a.hour ++ ':' :: (digits 2 a.minute ++ ':' :: (digits 2 a.second ++
      suffix a.microsecond))))))

example : isoformat ⟨2024, 2, 29, 7, 5, 0, 1200, by decide, by decide, by decide, by decide,
    by decide, by decide, by decide⟩ = "2024-02-29T07:05:00.001200+00:00" := by
  decide

end DateTime

/-! ## The order of dates -/

theorem isLeap_iff (year : ℕ) :
    isLeap year = true ↔ year % 4 = 0 ∧ (year % 100 ≠ 0 ∨ year % 400 = 0) := by
  simp [isLeap]

theorem daysBeforeMonth_thirteen (year : ℕ) :
    daysBeforeMonth year 13 = 365 + if isLeap year then 1 else 0 := by
  simp only [daysBeforeMonth, List.range_succ, daysInMonth]
  cases isLeap year <;> rfl

theorem succ_div (n k : ℕ) : (n + 1) / k = n / k + if (n + 1) % k = 0 then 1 else 0 := by
  rw [Nat.succ_div]
  simp [Nat.dvd_iff_mod_eq_zero]

theorem daysBeforeYear_succ {year : ℕ} (h : 1 ≤ year) :
    daysBeforeYear (year + 1) = daysBeforeYear year + daysBeforeMonth year 13 := by
  obtain ⟨y, rfl⟩ := Nat.exists_eq_add_of_le' h
  have hcentury : y / 100 = y / 4 / 25 := by rw [Nat.div_div_eq_div_mul]
  have hhundred : (y + 1) % 100 = 0 → (y + 1) % 4 = 0 := by omega
  have hfourHundred : (y + 1) % 400 = 0 → (y + 1) % 100 = 0 := by omega
  rw [daysBeforeMonth_thirteen]
  simp only [daysBeforeYear, Nat.add_sub_cancel, isLeap_iff]
  rw [succ_div y 4, succ_div y 100, succ_div y 400]
  split_ifs at * <;> simp_all <;> omega

theorem daysBeforeYear_mono {year year' : ℕ} (hyear : 1 ≤ year) (h : year ≤ year') :
    daysBeforeYear year ≤ daysBeforeYear year' := by
  induction year', h using Nat.le_induction with
  | base => exact le_rfl
  | succ year' h ih =>
      rw [daysBeforeYear_succ (hyear.trans h)]
      exact ih.trans (Nat.le_add_right _ _)

theorem daysBeforeMonth_succ {year month : ℕ} (h : 1 ≤ month) :
    daysBeforeMonth year (month + 1) = daysBeforeMonth year month + daysInMonth year month := by
  obtain ⟨month, rfl⟩ := Nat.exists_eq_add_of_le' h
  simp [daysBeforeMonth, List.range_succ]

theorem daysBeforeMonth_mono {year month month' : ℕ} (hmonth : 1 ≤ month) (h : month ≤ month') :
    daysBeforeMonth year month ≤ daysBeforeMonth year month' := by
  induction month', h using Nat.le_induction with
  | base => exact le_rfl
  | succ month' h ih =>
      rw [daysBeforeMonth_succ (hmonth.trans h)]
      exact ih.trans (Nat.le_add_right _ _)

namespace DateTime

variable {a b : DateTime}

theorem daysInMonth_le (year month : ℕ) : daysInMonth year month ≤ 31 := by
  unfold daysInMonth
  split_ifs <;> omega

/-- A day lies before the first of the next month. -/
theorem day_le (a : DateTime) : daysBeforeMonth a.year a.month + a.day ≤
    daysBeforeMonth a.year (a.month + 1) := by
  rw [daysBeforeMonth_succ a.monthValid.1]
  exact Nat.add_le_add_left a.dayValid.2 _

theorem toordinal_lt_of_year (h : a.year < b.year) : a.toordinal < b.toordinal := by
  have hmonth : daysBeforeMonth a.year (a.month + 1) ≤ daysBeforeMonth a.year 13 :=
    daysBeforeMonth_mono (Nat.le_add_left 1 _) (Nat.succ_le_succ a.monthValid.2)
  have hyear : daysBeforeYear (a.year + 1) ≤ daysBeforeYear b.year :=
    daysBeforeYear_mono (Nat.le_add_left 1 _) h
  rw [daysBeforeYear_succ a.yearValid.1] at hyear
  have hday := a.day_le
  have hfirst := b.dayValid.1
  unfold toordinal
  omega

theorem toordinal_lt_of_month (hyear : a.year = b.year) (h : a.month < b.month) :
    a.toordinal < b.toordinal := by
  have hmonth : daysBeforeMonth a.year (a.month + 1) ≤ daysBeforeMonth a.year b.month :=
    daysBeforeMonth_mono (Nat.le_add_left 1 _) h
  have hday := a.day_le
  have hfirst := b.dayValid.1
  unfold toordinal
  rw [← hyear]
  omega

/-- Days are ordered as year, month and day are. -/
theorem toordinal_lt_iff : a.toordinal < b.toordinal ↔ a.year < b.year ∨
    a.year = b.year ∧ (a.month < b.month ∨ a.month = b.month ∧ a.day < b.day) := by
  rcases lt_trichotomy a.year b.year with hyear | hyear | hyear
  · simp [hyear, toordinal_lt_of_year hyear]
  · rcases lt_trichotomy a.month b.month with hmonth | hmonth | hmonth
    · simp [hyear, hmonth, toordinal_lt_of_month hyear hmonth]
    · simp [toordinal, hyear, hmonth]
    · simp [hyear, hmonth.not_gt, hmonth.ne', (toordinal_lt_of_month hyear.symm hmonth).le]
  · simp [hyear.not_gt, hyear.ne', (toordinal_lt_of_year hyear).le]

theorem toordinal_inj : a.toordinal = b.toordinal ↔
    a.year = b.year ∧ a.month = b.month ∧ a.day = b.day := by
  constructor
  · intro h
    have hab := (not_congr toordinal_lt_iff).mp h.not_lt
    have hba := (not_congr toordinal_lt_iff).mp h.not_gt
    omega
  · rintro ⟨hyear, hmonth, hday⟩
    rw [toordinal, toordinal, hyear, hmonth, hday]

theorem secondOfDay_lt (a : DateTime) : a.secondOfDay < 86400 := by
  have hhour := a.hourValid
  have hminute := a.minuteValid
  have hsecond := a.secondValid
  unfold secondOfDay
  omega

theorem secondOfDay_lt_iff : a.secondOfDay < b.secondOfDay ↔ a.hour < b.hour ∨
    a.hour = b.hour ∧ (a.minute < b.minute ∨ a.minute = b.minute ∧ a.second < b.second) := by
  have hhour := radix_lt_iff (a := a.hour) (b := b.hour) a.minuteValid b.minuteValid
  unfold secondOfDay
  rw [radix_lt_iff a.secondValid b.secondValid, hhour]
  have hminute := a.minuteValid
  have hminute' := b.minuteValid
  omega

theorem secondOfDay_inj : a.secondOfDay = b.secondOfDay ↔
    a.hour = b.hour ∧ a.minute = b.minute ∧ a.second = b.second := by
  have hminute := a.minuteValid
  have hminute' := b.minuteValid
  have hsecond := a.secondValid
  have hsecond' := b.secondValid
  unfold secondOfDay
  omega

/-- Moments are ordered as their fields are, the year first. -/
theorem instant_lt_iff : a.instant < b.instant ↔ a.toordinal < b.toordinal ∨
    a.toordinal = b.toordinal ∧ (a.secondOfDay < b.secondOfDay ∨
      a.secondOfDay = b.secondOfDay ∧ a.microsecond < b.microsecond) := by
  have hsecond := radix_lt_iff (a := a.toordinal) (b := b.toordinal)
    a.secondOfDay_lt b.secondOfDay_lt
  have hsecond' := a.secondOfDay_lt
  have hsecond'' := b.secondOfDay_lt
  unfold instant
  rw [Int.ofNat_lt, radix_lt_iff a.microsecondValid b.microsecondValid, hsecond]
  omega

/-! ## The order of texts -/

theorem cons_lt_cons_self {c : Char} {xs ys : List Char} : c :: xs < c :: ys ↔ xs < ys := by
  simp

/-- The offset's `+` comes before the `.` of a fraction. -/
theorem suffix_lt_suffix_iff {m n : ℕ} (hm : m < 1000000) (hn : n < 1000000) :
    suffix m < suffix n ↔ m < n := by
  have hdigits : digits 6 m ++ "+00:00".toList < digits 6 n ++ "+00:00".toList ↔
      m < n ∨ m = n ∧ "+00:00".toList < "+00:00".toList := digits_append_lt_iff hm hn
  unfold suffix
  split_ifs with hzero hzero' hzero'
  · simp [hzero, hzero']
  · simpa [List.cons_lt_cons_iff, hzero, Nat.pos_iff_ne_zero] using hzero'
  · simp [List.cons_lt_cons_iff, hzero']
  · rw [List.cons_append, List.cons_append, List.cons_lt_cons_iff, hdigits]
    simp

/-- Texts are ordered as the moments they stand for. -/
theorem isoformat_lt_iff : a.isoformat < b.isoformat ↔ a.instant < b.instant := by
  have hyear : ∀ c : DateTime, c.year < 10 ^ 4 := fun c ↦ Nat.lt_succ_of_le c.yearValid.2
  have hmonth : ∀ c : DateTime, c.month < 10 ^ 2 := fun c ↦ by
    have := c.monthValid.2
    omega
  have hday : ∀ c : DateTime, c.day < 10 ^ 2 := fun c ↦ by
    have := c.dayValid.2.trans (daysInMonth_le c.year c.month)
    omega
  have hhour : ∀ c : DateTime, c.hour < 10 ^ 2 := fun c ↦ c.hourValid.trans (by norm_num)
  have hminute : ∀ c : DateTime, c.minute < 10 ^ 2 := fun c ↦ c.minuteValid.trans (by norm_num)
  have hsecond : ∀ c : DateTime, c.second < 10 ^ 2 := fun c ↦ c.secondValid.trans (by norm_num)
  rw [String.lt_iff, isoformat, isoformat, String.toList_ofList, String.toList_ofList,
    digits_append_lt_iff (hyear a) (hyear b), cons_lt_cons_self,
    digits_append_lt_iff (hmonth a) (hmonth b), cons_lt_cons_self,
    digits_append_lt_iff (hday a) (hday b), cons_lt_cons_self,
    digits_append_lt_iff (hhour a) (hhour b), cons_lt_cons_self,
    digits_append_lt_iff (hminute a) (hminute b), cons_lt_cons_self,
    digits_append_lt_iff (hsecond a) (hsecond b),
    suffix_lt_suffix_iff a.microsecondValid b.microsecondValid,
    instant_lt_iff, toordinal_lt_iff, toordinal_inj, secondOfDay_lt_iff, secondOfDay_inj]
  tauto

theorem isoformat_le_iff : a.isoformat ≤ b.isoformat ↔ a.instant ≤ b.instant := by
  rw [← not_lt, isoformat_lt_iff, not_lt]

end DateTime

/-! ## The columns -/

/-- A row and the time in one of its columns, as `isoformat` wrote it. -/
structure Stamped (Row : Type) (column : Row → Timestamp) where
  row : Row
  stamp : DateTime
  agrees : column row = stamp.instant

namespace Stamped

variable {Row : Type} {column : Row → Timestamp}

/-- `ORDER BY` the column -/
def orderByText (rows : List (Stamped Row column)) : List Row :=
  (rows.insertionSort fun r r' ↦ r.stamp.isoformat ≤ r'.stamp.isoformat).map row

theorem isoformat_le_iff (r r' : Stamped Row column) :
    r.stamp.isoformat ≤ r'.stamp.isoformat ↔ column r.row ≤ column r'.row := by
  rw [DateTime.isoformat_le_iff, r.agrees, r'.agrees]

theorem orderByText_eq (rows : List (Stamped Row column)) :
    orderByText rows = (rows.map row).insertionSort fun r r' ↦ column r ≤ column r' :=
  List.map_insertionSort _ _ row rows fun r _ r' _ ↦ isoformat_le_iff r r'

theorem pairwise_isoformat_iff (rows : List (Stamped Row column)) :
    rows.Pairwise (fun r r' ↦ r.stamp.isoformat ≤ r'.stamp.isoformat) ↔
      (rows.map row).Pairwise fun r r' ↦ column r ≤ column r' := by
  rw [List.pairwise_map]
  exact List.Pairwise.iff fun r r' ↦ isoformat_le_iff r r'

end Stamped

/-- An attempt and its lease, as `isoformat` wrote it. -/
structure StampedAttempt where
  row : AttemptRow
  lease : Option DateTime
  agrees : row.leaseExpiresAt = lease.map DateTime.instant

namespace StampedAttempt

/-- `status = 'running' AND lease_expires_at IS NOT NULL AND lease_expires_at < ?` -/
def expired (a : StampedAttempt) (reference : String) : Bool :=
  a.row.status = .running &&
    match a.lease with
    | some lease => lease.isoformat < reference
    | none => false

theorem expired_eq (a : StampedAttempt) (now : DateTime) :
    a.expired now.isoformat = a.row.expired now.instant := by
  rw [expired, AttemptRow.expired, a.agrees]
  cases a.lease with
  | none => rfl
  | some lease =>
      have hlease : decide (lease.isoformat < now.isoformat) =
          decide (lease.instant < now.instant) := by
        rw [decide_eq_decide]
        exact DateTime.isoformat_lt_iff
      exact congrArg (decide (a.row.status = .running) && ·) hlease

theorem filter_expired (attempts : List StampedAttempt) (now : DateTime) :
    (attempts.filter (·.expired now.isoformat)).map row =
      (attempts.map row).filter (·.expired now.instant) := by
  simp only [expired_eq, List.filter_map]
  rfl

theorem expired_iff (a : StampedAttempt) (now : DateTime) : a.expired now.isoformat = true ↔
    a.row.status = .running ∧ ∃ lease ∈ a.lease, lease.instant < now.instant := by
  rw [expired_eq, AttemptRow.expired, a.agrees]
  cases a.lease <;> simp

end StampedAttempt

/-- The order of the texts is the order of time: the attempts whose lease lies before
the reference as a text are those `expiredAttempts` finds, and rows put in order
of a column of texts are in order of its times. -/
theorem text_order_is_time_order :
    (∀ a b : DateTime, a.isoformat < b.isoformat ↔ a.instant < b.instant) ∧
      (∀ (attempts : List StampedAttempt) (now : DateTime),
        (∀ a ∈ attempts, (a.expired now.isoformat = true ↔
          a.row.status = .running ∧ ∃ lease ∈ a.lease, lease.instant < now.instant)) ∧
        (attempts.filter (·.expired now.isoformat)).map StampedAttempt.row =
          (attempts.map StampedAttempt.row).filter (·.expired now.instant)) ∧
      ∀ (Row : Type) (column : Row → Timestamp) (rows : List (Stamped Row column)),
        (rows.Pairwise (fun r r' ↦ r.stamp.isoformat ≤ r'.stamp.isoformat) ↔
          (rows.map Stamped.row).Pairwise fun r r' ↦ column r ≤ column r') ∧
        Stamped.orderByText rows =
          (rows.map Stamped.row).insertionSort fun r r' ↦ column r ≤ column r' := by
  refine ⟨fun _ _ ↦ DateTime.isoformat_lt_iff, fun attempts now ↦ ⟨?_, ?_⟩,
    fun _ _ rows ↦ ⟨?_, ?_⟩⟩
  · exact fun a _ ↦ a.expired_iff now
  · exact StampedAttempt.filter_expired attempts now
  · exact Stamped.pairwise_isoformat_iff rows
  · exact Stamped.orderByText_eq rows

end ChipEvolve
