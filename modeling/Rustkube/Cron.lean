import Rustkube.ListSelector
import Rustkube.Metadata

/- Cron schedules over the minutes of UTC. A time is in nanoseconds since the epoch. -/
namespace Rustkube.Cron

open List

def second : Int := 10 ^ 9

def minute : Int := 60 * second

def day : Int := 24 * 60 * minute

/-- The time with what is below the unit cut off. -/
def floor (unit time : Int) : Int := time / unit * unit

/-- The end of the year 9999, the last that a timestamp has room for. -/
def endOfTime : Int := 253402300800 * second

/-- Timestamps in RFC 3339. What was written with whole seconds is read back. -/
structure TimeText where
  format : Int → String
  parse : String → Option Int
  roundTrip : ∀ time, 0 ≤ time → time < endOfTime →
    parse (format time) = some (floor second time)

variable (time : Int)

def minuteOf : Nat := (time / minute % 60).toNat

def hourOf : Nat := (time / (60 * minute) % 24).toNat

/-- Sunday is 0. The epoch was a Thursday. -/
def weekdayOf : Nat := ((time / day + 4) % 7).toNat

/-- The month and the day in it, from the days since 1 March of year 0: eras of 400 years, years
that start in March. -/
def monthDay : Nat × Nat :=
  let days := time / day + 719468
  let ofEra := days % 146097
  let year := (ofEra - ofEra / 1460 + ofEra / 36524 - ofEra / 146096) / 365
  let ofYear := ofEra - (365 * year + year / 4 - year / 100)
  let month := (5 * ofYear + 2) / 153
  ((if month < 10 then month + 3 else month - 9).toNat, (ofYear - (153 * month + 2) / 5 + 1).toNat)

/-- `text.split_whitespace()` -/
def words (text : String) : List String :=
  ((text.toList.splitOnP ListSelector.isWhitespace).filter (· ≠ [])).map String.ofList

/-- `?` stands for no value in particular. -/
def isAny (field : String) : Bool := field = "*" ∨ field = "?"

/-- `text.parse::<u32>()` -/
def parseU32 (text : String) : Option Nat := (parseU64Text text).filter (· < 2 ^ 32)

/-- Every `step`-th value from `value` on. The sum is a `u32`; values up to `last` are passed in one
direction, so as many rounds as there are such values are enough. -/
def steps (step first last : Nat) : (rounds value : Nat) → List Nat
  | 0, _ => []
  | rounds + 1, value =>
    if value ≤ last then
      (if first ≤ value then [value] else []) ++ steps step first last rounds
        ((value + step) % 2 ^ 32)
    else []

/-- The range of a part, without its step. -/
def range? (base : String) (least greatest : Nat) : Option (Nat × Nat) :=
  if isAny base then some (least, greatest)
  else
    match Text.splitOnce base '-' with
    | some (low, high) =>
      match parseU32 (ListSelector.trim low), parseU32 (ListSelector.trim high) with
      | some low, some high => if low ≤ high then some (low, high) else none
      | _, _ => none
    | none => (parseU32 (ListSelector.trim base)).map fun value => (value, value)

def parsePart (part : String) (least greatest : Nat) : List Nat :=
  let (base, step) := match Text.splitOnce part '/' with
    | some (base, step) => (base, (parseU32 step).getD 0)
    | none => (part, 1)
  if step = 0 then []
  else
    match range? base least greatest with
    | some (low, high) => steps step least (min high greatest) (greatest + 2) low
    | none => []

/-- The values a field stands for: `*`, `*/n`, `a-b`, `a-b/n`, and lists of these. -/
def parseField (field : String) (least greatest : Nat) : List Nat :=
  (Text.split field ',').flatMap fun part => parsePart (ListSelector.trim part) least greatest

/-- When both days are restricted, either of them will do. -/
def matchesSchedule (schedule : String) (instant : Int) : Bool :=
  match words schedule with
  | [minutes, hours, days, months, weekdays] =>
    let (month, dayOfMonth) := monthDay instant
    let weekday := weekdayOf instant
    let weekdaySet := parseField weekdays 0 7
    let weekdayMatches := weekday ∈ weekdaySet ∨ weekday = 0 ∧ 7 ∈ weekdaySet
    let dayMatches := dayOfMonth ∈ parseField days 1 31
    minuteOf instant ∈ parseField minutes 0 59 ∧ hourOf instant ∈ parseField hours 0 23 ∧
      month ∈ parseField months 1 12 ∧
      if !isAny days && !isAny weekdays then dayMatches ∨ weekdayMatches
      else dayMatches ∧ weekdayMatches
  | _ => false

-- Ten o'clock on Saturday, 26 September 2026.
example : (matchesSchedule "0 10 ? * 6" (1790416800 * second) &&
    matchesSchedule "*/15,7 9-10 26 * 1" (1790416800 * second) &&
    !matchesSchedule "0 10 ? * 1" (1790416800 * second)) = true := by decide +kernel

section

inductive MissedError where
  | tooMany (count : Nat)
  | tooFarBehind
deriving DecidableEq

def maxLookback : Int := 7 * day

def tooManyMissed : Nat := 100

variable (schedule : String)

/-- The minutes after `since` up to `now`. -/
def minutesBetween (since now : Int) : List Int :=
  let first := floor minute since + minute
  (List.range ((floor minute now - first) / minute + 1).toNat).map
    fun count : Nat => first + (count : Int) * minute

/-- The starts strictly after `since`, the oldest first. Too long a history is refused. -/
def missedStarts (since now : Int) : Except MissedError (List Int) :=
  if now < since then .ok []
  else if maxLookback < now - since then .error .tooFarBehind
  else
    let starts := (minutesBetween since now).filter (matchesSchedule schedule)
    if tooManyMissed < starts.length then .error (.tooMany (tooManyMissed + 1)) else .ok starts

/-- What is older than the deadline is not run. -/
def sinceWhen (lastSchedule : Option Int) (created now : Int) (startingDeadline : Option Int) :
    Int :=
  let since := lastSchedule.getD created
  match startingDeadline with
  | some deadline => max since (now - deadline * second)
  | none => since

/-- The latest start that is owed. -/
def startToRun (lastSchedule : Option Int) (created now : Int) (startingDeadline : Option Int) :
    Except MissedError (Option Int) :=
  (missedStarts schedule (sinceWhen lastSchedule created now startingDeadline) now).map
    List.getLast?

end

variable {schedule : String} {since now created unit start : Int} {lastSchedule : Option Int}
  {startingDeadline : Option Int} {error : MissedError}

theorem floor_le (positive : 0 < unit) (time : Int) : floor unit time ≤ time :=
  Int.ediv_mul_le time positive.ne'

theorem lt_floor_add (positive : 0 < unit) (time : Int) : time < floor unit time + unit := by
  have below := Int.lt_ediv_add_one_mul_self time positive
  rwa [Int.add_mul, Int.one_mul] at below

theorem floor_mul (positive : 0 < unit) (count : Int) :
    floor unit (count * unit) = count * unit := by
  rw [floor, Int.mul_ediv_cancel _ positive.ne']

theorem minute_pos : 0 < minute := by decide

theorem second_pos : 0 < second := by decide

theorem mem_minutesBetween {time : Int} (member : time ∈ minutesBetween since now) :
    since < time ∧ time ≤ floor minute now ∧ floor minute time = time := by
  obtain ⟨count, inRange, rfl⟩ := mem_map.mp member
  set first := floor minute since + minute with isFirst
  have below : (count : Int) ≤ (floor minute now - first) / minute := by
    have := mem_range.mp inRange
    omega
  have after := lt_floor_add minute_pos since
  have forward : 0 ≤ (count : Int) * minute := Int.mul_nonneg (by omega) minute_pos.le
  have bounded : (count : Int) * minute ≤ floor minute now - first := calc
    (count : Int) * minute ≤ (floor minute now - first) / minute * minute :=
      Int.mul_le_mul_of_nonneg_right below minute_pos.le
    _ ≤ floor minute now - first := Int.ediv_mul_le _ minute_pos.ne'
  have whole : first + count * minute = (since / minute + 1 + count) * minute := by
    rw [isFirst, floor, Int.add_mul, Int.add_mul, Int.one_mul]
  refine ⟨by omega, by omega, ?_⟩
  rw [whole, floor_mul minute_pos]

theorem lastSchedule_le (lastSchedule : Option Int) (created now : Int)
    (startingDeadline : Option Int) :
    lastSchedule.getD created ≤ sinceWhen lastSchedule created now startingDeadline := by
  cases startingDeadline with
  | none => exact le_rfl
  | some deadline => exact le_max_left _ _

theorem floor_minute_le (time : Int) : floor minute time ≤ floor second time := by
  have whole : floor minute time = time / minute * 60 * second := by
    rw [floor, minute, Int.mul_assoc]
  have low := floor_le minute_pos time
  rw [whole] at low ⊢
  exact Int.mul_le_mul_of_nonneg_right (Int.le_ediv_of_mul_le second_pos low) second_pos.le

theorem missedStarts_error (refused : missedStarts schedule since now = .error error) :
    since ≤ floor second now := by
  have near := lt_floor_add second_pos now
  unfold missedStarts at refused
  dsimp only at refused
  split_ifs at refused with early behind many
  · have long : second ≤ maxLookback := by decide
    omega
  · have ⟨start, member⟩ := exists_mem_of_length_pos (Nat.lt_of_le_of_lt (Nat.zero_le _) many)
    have ⟨after, past, whole⟩ := mem_minutesBetween (mem_of_mem_filter member)
    have coarse := floor_minute_le now
    omega

/-- A start that is owed is a whole minute after the last one, not in the future and not long
ago. -/
structure Owed (schedule : String) (since now start : Int) : Prop where
  fires : matchesSchedule schedule start = true
  after : since < start
  past : start ≤ now
  whole : floor minute start = start
  recent : now - maxLookback < start

theorem startToRun_owed
    (owed : startToRun schedule lastSchedule created now startingDeadline = .ok (some start)) :
    Owed schedule (lastSchedule.getD created) now start := by
  have later := lastSchedule_le lastSchedule created now startingDeadline
  unfold startToRun at owed
  cases found : missedStarts schedule (sinceWhen lastSchedule created now startingDeadline) now with
  | error error =>
    rw [found] at owed
    cases owed
  | ok starts =>
    rw [found] at owed
    have last := mem_of_getLast? (Except.ok.inj owed)
    unfold missedStarts at found
    dsimp only at found
    split_ifs at found with early behind many
    all_goals cases found
    · cases last
    have ⟨member, fires⟩ := mem_filter.mp last
    have ⟨after, past, whole⟩ := mem_minutesBetween member
    have low := floor_le minute_pos now
    exact ⟨fires, by omega, by omega, whole, by omega⟩

theorem startToRun_error
    (refused : startToRun schedule lastSchedule created now startingDeadline = .error error) :
    lastSchedule.getD created ≤ floor second now := by
  have later := lastSchedule_le lastSchedule created now startingDeadline
  unfold startToRun at refused
  cases found : missedStarts schedule (sinceWhen lastSchedule created now startingDeadline) now with
  | error error => exact later.trans (missedStarts_error found)
  | ok starts =>
    rw [found] at refused
    cases refused

/- Which schedules are accepted, and the search for the next start of one. -/

inductive Invalid where
  | wrongFieldCount (count : Nat)
  | emptyField (field value : String)
  | impossibleDate
deriving DecidableEq

/-- The fields in their order, with the least and the greatest value of each. -/
def specs : List (String × Nat × Nat) :=
  [("minute", 0, 59), ("hour", 0, 23), ("day-of-month", 1, 31), ("month", 1, 12),
    ("day-of-week", 0, 7)]

def isLeap (year : Nat) : Bool := year % 4 = 0 ∧ (year % 100 ≠ 0 ∨ year % 400 = 0)

/-- `NaiveDate::from_ymd_opt(year, month, dayOfMonth).is_some()` -/
def isDate (year month dayOfMonth : Nat) : Bool :=
  let length :=
    if month = 2 then if isLeap year then 29 else 28
    else if month ∈ [4, 6, 9, 11] then 30 else 31
  1 ≤ month ∧ month ≤ 12 ∧ 1 ≤ dayOfMonth ∧ dayOfMonth ≤ length

/-- One of the months has one of the days, in four years with a leap year among them. -/
def possible (days months : String) : Bool :=
  (List.range' 2024 4).any fun year => (List.range' 1 12).any fun month =>
    month ∈ parseField months 1 12 && (List.range' 1 31).any fun dayOfMonth =>
      dayOfMonth ∈ parseField days 1 31 && isDate year month dayOfMonth

def emptyField? (fields : List String) : Option (String × String × Nat × Nat) :=
  (fields.zip specs).find? fun (value, _, least, greatest) =>
    (parseField value least greatest).isEmpty

def validate (schedule : String) : Except Invalid Unit :=
  match words schedule with
  | [minutes, hours, days, months, weekdays] =>
    match emptyField? [minutes, hours, days, months, weekdays] with
    | some (value, field, _) => .error (.emptyField field value)
    | none => if !isAny days && !possible days months then .error .impossibleDate else .ok ()
  | fields => .error (.wrongFieldCount fields.length)

def weekdayMatches (weekdays : String) (date : Int) : Bool :=
  weekdayOf date ∈ parseField weekdays 0 7 ∨ weekdayOf date = 0 ∧ 7 ∈ parseField weekdays 0 7

def dayMatches (days months weekdays : String) (date : Int) : Bool :=
  let onDay := (monthDay date).2 ∈ parseField days 1 31
  (monthDay date).1 ∈ parseField months 1 12 ∧
    if !isAny days && !isAny weekdays then onDay ∨ weekdayMatches weekdays date
    else onDay ∧ weekdayMatches weekdays date

/-- `date.and_hms_opt(hour, minute, 0)` -/
def hms (date : Int) (hour minutes : Nat) : Int := date + hour * (60 * minute) + minutes * minute

variable (time : Int) {schedule : String}

theorem ofYear_bounds (ofEra year : Int) (low : 0 ≤ ofEra) (high : ofEra < 146097)
    (isYear : year = (ofEra - ofEra / 1460 + ofEra / 36524 - ofEra / 146096) / 365) :
    0 ≤ ofEra - (365 * year + year / 4 - year / 100) ∧
      ofEra - (365 * year + year / 4 - year / 100) < 366 := by
  -- With the centuries known, what is left compares cycles of four years.
  have century : ofEra / 36524 = 0 ∨ ofEra / 36524 = 1 ∨ ofEra / 36524 = 2 ∨ ofEra / 36524 = 3 ∨
    ofEra / 36524 = 4 := by omega
  have hundred : year / 100 = 0 ∨ year / 100 = 1 ∨ year / 100 = 2 ∨ year / 100 = 3 := by omega
  rcases century with century | century | century | century | century <;>
    rcases hundred with hundred | hundred | hundred | hundred <;> omega

theorem isDate_monthDay : isDate 2024 (monthDay time).1 (monthDay time).2 = true := by
  have ⟨low, high⟩ := ofYear_bounds ((time / day + 719468) % 146097) _ (by omega) (by omega) rfl
  unfold monthDay
  dsimp only
  generalize (_ - (_ + _ - _) : Int) = ofYear at low high ⊢
  lift ofYear to Nat using low
  have all : ∀ ofYear ∈ range 366,
      isDate 2024 (if (5 * (ofYear : Int) + 2) / 153 < 10 then (5 * (ofYear : Int) + 2) / 153 + 3
        else (5 * (ofYear : Int) + 2) / 153 - 9).toNat
        ((ofYear : Int) - (153 * ((5 * (ofYear : Int) + 2) / 153) + 2) / 5 + 1).toNat = true := by
    decide +kernel
  exact all ofYear (mem_range.mpr (by omega))

theorem isDate_leap {year month dayOfMonth : Nat} (real : isDate year month dayOfMonth = true) :
    isDate 2024 month dayOfMonth = true := by
  have leap : isLeap 2024 = true := rfl
  simp only [isDate, decide_eq_true_eq, leap, if_true] at real ⊢
  split_ifs at real ⊢ <;> omega

/-- The day in 2024. -/
def dateOf (month dayOfMonth : Nat) : Int :=
  ((if month ≤ 2 then 19417 else 19783) + (153 * ((month + 9) % 12) + 2) / 5 +
    dayOfMonth - 1 : Nat) * day

theorem monthDay_dateOf {month dayOfMonth : Nat} (real : isDate 2024 month dayOfMonth = true) :
    monthDay (dateOf month dayOfMonth) = (month, dayOfMonth) := by
  have all : ∀ month < 13, ∀ dayOfMonth < 32, isDate 2024 month dayOfMonth = true →
      monthDay (dateOf month dayOfMonth) = (month, dayOfMonth) := by decide +kernel
  have := real
  simp only [isDate, decide_eq_true_eq] at this
  refine all month (by omega) dayOfMonth ?_ real
  split_ifs at this <;> omega

/-- Every month has every day of the week. -/
theorem exists_weekday {month weekday : Nat} (isMonth : 1 ≤ month ∧ month ≤ 12)
    (isWeekday : weekday < 7) :
    ∃ dayOfMonth, isDate 2024 month dayOfMonth = true ∧ weekdayOf (dateOf month dayOfMonth) =
      weekday := by
  have all : ∀ month ∈ range' 1 12, ∀ weekday < 7, ∃ dayOfMonth < 8,
      isDate 2024 month dayOfMonth = true ∧ weekdayOf (dateOf month dayOfMonth) = weekday := by
    decide +kernel
  have ⟨dayOfMonth, _, found⟩ := all month (by simp; omega) weekday isWeekday
  exact ⟨dayOfMonth, found⟩

theorem hms_spec (count : Int) {hour minutes : Nat} (isHour : hour ≤ 23) (isMinute : minutes ≤ 59) :
    hms (count * day) hour minutes / day = count ∧ hourOf (hms (count * day) hour minutes) = hour ∧
      minuteOf (hms (count * day) hour minutes) = minutes ∧
      floor minute (hms (count * day) hour minutes) = hms (count * day) hour minutes := by
  simp only [hms, hourOf, minuteOf, floor, day, minute, second]
  omega

section

theorem mem_steps {step first last rounds start value : Nat}
    (member : value ∈ steps step first last rounds start) : first ≤ value ∧ value ≤ last := by
  induction rounds generalizing start with
  | zero => cases member
  | succ rounds ih =>
    unfold steps at member
    split_ifs at member with inside low
    · rcases mem_append.mp member with here | later
      · cases mem_singleton.mp here
        exact ⟨low, inside⟩
      · exact ih later
    · exact ih member
    · cases member

theorem mem_parseField {field : String} {least greatest value : Nat}
    (member : value ∈ parseField field least greatest) : least ≤ value ∧ value ≤ greatest := by
  have ⟨part, _, inPart⟩ := mem_flatMap.mp member
  unfold parsePart at inPart
  dsimp only at inPart
  split_ifs at inPart with noStep
  · cases inPart
  · split at inPart
    · have ⟨low, high⟩ := mem_steps inPart
      exact ⟨low, high.trans (min_le_right _ _)⟩
    · cases inPart

theorem parseField_any {field : String} (any : isAny field = true) :
    (∀ value ∈ range' 1 31, value ∈ parseField field 1 31) ∧
      ∀ value < 7, value ∈ parseField field 0 7 := by
  rcases of_decide_eq_true any with rfl | rfl <;> decide +kernel

theorem dayMatches_congr (days months weekdays : String) {one other : Int}
    (same : one / day = other / day) :
    dayMatches days months weekdays one = dayMatches days months weekdays other := by
  have sameDate : monthDay one = monthDay other := by rw [monthDay, same, ← monthDay]
  have sameWeekday : weekdayOf one = weekdayOf other := by rw [weekdayOf, same, ← weekdayOf]
  simp only [dayMatches, weekdayMatches, decide_eq_true_eq, sameDate, sameWeekday]

/-- The schedule has five fields, and each of them stands for some value. -/
def Parses (schedule : String) : Prop :=
  (words schedule).length = 5 ∧
    ∀ entry ∈ (words schedule).zip specs, parseField entry.1 entry.2.2.1 entry.2.2.2 ≠ []

variable {schedule minutes hours days months weekdays : String}
  (fields : words schedule = [minutes, hours, days, months, weekdays])

include fields

theorem matchesSchedule_iff (instant : Int) : matchesSchedule schedule instant = true ↔
    minuteOf instant ∈ parseField minutes 0 59 ∧ hourOf instant ∈ parseField hours 0 23 ∧
      dayMatches days months weekdays instant = true := by
  simp [matchesSchedule, fields, dayMatches, weekdayMatches]

theorem parses_iff : Parses schedule ↔ parseField minutes 0 59 ≠ [] ∧ parseField hours 0 23 ≠ [] ∧
    parseField days 1 31 ≠ [] ∧ parseField months 1 12 ≠ [] ∧ parseField weekdays 0 7 ≠ [] := by
  simp [Parses, fields, specs]

theorem validate_iff : validate schedule = .ok () ↔
    Parses schedule ∧ (isAny days = false → possible days months = true) := by
  have none : emptyField? [minutes, hours, days, months, weekdays] = none ↔ Parses schedule := by
    simp [emptyField?, parses_iff fields, specs]
  unfold validate
  rw [fields, ← none]
  dsimp only
  split
  case h_1 found => simp [found]
  case h_2 found => cases isAny days <;> cases possible days months <;> simp [found]

/-- The minute and the hour are free, so a day that matches is enough. -/
theorem exists_match (parses : Parses schedule) {date : Int}
    (onDay : dayMatches days months weekdays date = true) :
    ∃ instant, matchesSchedule schedule instant = true := by
  have ⟨someMinute, someHour, _⟩ := (parses_iff fields).mp parses
  have ⟨minutes, isMinute⟩ := exists_mem_of_ne_nil _ someMinute
  have ⟨hour, isHour⟩ := exists_mem_of_ne_nil _ someHour
  have ⟨sameDay, sameHour, sameMinute, _⟩ :=
    hms_spec (date / day) (mem_parseField isHour).2 (mem_parseField isMinute).2
  refine ⟨hms (date / day * day) hour minutes, (matchesSchedule_iff fields _).mpr ?_⟩
  rw [sameMinute, sameHour, dayMatches_congr days months weekdays sameDay]
  exact ⟨isMinute, isHour, onDay⟩

/-- Some day of one of the months is on one of the weekdays. -/
theorem exists_weekdayMatch (parses : Parses schedule) : ∃ month dayOfMonth,
    isDate 2024 month dayOfMonth = true ∧ month ∈ parseField months 1 12 ∧
      weekdayMatches weekdays (dateOf month dayOfMonth) = true := by
  have ⟨_, _, _, someMonth, someWeekday⟩ := (parses_iff fields).mp parses
  have ⟨month, isMonth⟩ := exists_mem_of_ne_nil _ someMonth
  have ⟨weekday, isWeekday⟩ := exists_mem_of_ne_nil _ someWeekday
  have bounded := (mem_parseField isWeekday).2
  have ⟨dayOfMonth, real, same⟩ :=
    exists_weekday (mem_parseField isMonth) (Nat.mod_lt weekday (by decide : 7 > 0))
  refine ⟨month, dayOfMonth, real, isMonth, decide_eq_true ?_⟩
  rcases Nat.lt_or_eq_of_le bounded with below | rfl
  · rw [Nat.mod_eq_of_lt below] at same
    exact .inl (same ▸ isWeekday)
  · exact .inr ⟨same, isWeekday⟩

omit fields in
theorem possible_iff : possible days months = true ↔ ∃ month ∈ parseField months 1 12,
    ∃ dayOfMonth ∈ parseField days 1 31, isDate 2024 month dayOfMonth = true := by
  simp only [possible, any_eq_true, Bool.and_eq_true, decide_eq_true_eq]
  constructor
  · rintro ⟨year, _, month, _, isMonth, dayOfMonth, _, isDay, real⟩
    exact ⟨month, isMonth, dayOfMonth, isDay, isDate_leap real⟩
  · rintro ⟨month, isMonth, dayOfMonth, isDay, real⟩
    have monthBounds := mem_parseField isMonth
    have dayBounds := mem_parseField isDay
    exact ⟨2024, by decide, month, by simp; omega, isMonth, dayOfMonth, by simp; omega, isDay, real⟩

omit fields in
theorem weekdayMatches_any (any : isAny weekdays = true) (date : Int) :
    weekdayMatches weekdays date = true :=
  decide_eq_true (.inl ((parseField_any any).2 _ (by unfold weekdayOf; omega)))

/-- A schedule that is accepted has a day: one of the dates, or one of the weekdays. -/
theorem exists_day (accepted : validate schedule = .ok ()) :
    ∃ date, dayMatches days months weekdays date = true := by
  have ⟨parses, dated⟩ := (validate_iff fields).mp accepted
  cases any : isAny days with
  | true =>
    have ⟨month, dayOfMonth, real, isMonth, onWeekday⟩ := exists_weekdayMatch fields parses
    have bounds := real
    simp only [isDate, decide_eq_true_eq] at bounds
    have isDay : dayOfMonth ∈ parseField days 1 31 := by
      refine (parseField_any any).1 _ (mem_range'_1.mpr ⟨by omega, ?_⟩)
      split_ifs at bounds <;> omega
    refine ⟨dateOf month dayOfMonth, ?_⟩
    simp [dayMatches, monthDay_dateOf real, isMonth, isDay, onWeekday, any]
  | false =>
    have ⟨month, isMonth, dayOfMonth, isDay, real⟩ := possible_iff.mp (dated any)
    refine ⟨dateOf month dayOfMonth, ?_⟩
    cases weekly : isAny weekdays with
    | true => simp [dayMatches, monthDay_dateOf real, isMonth, isDay, weekdayMatches_any weekly,
      weekly]
    | false => simp [dayMatches, monthDay_dateOf real, isMonth, isDay, any, weekly]

end

theorem fields_of_parses (parses : Parses schedule) :
    ∃ minutes hours days months weekdays, words schedule =
      [minutes, hours, days, months, weekdays] := by
  have five := parses.1
  match words schedule, five with
  | [minutes, hours, days, months, weekdays], _ =>
    exact ⟨minutes, hours, days, months, weekdays, rfl⟩

theorem fields_of_validate (accepted : validate schedule = .ok ()) :
    ∃ minutes hours days months weekdays, words schedule =
      [minutes, hours, days, months, weekdays] := by
  unfold validate at accepted
  split at accepted
  · exact ⟨_, _, _, _, _, ‹_›⟩
  · cases accepted

/-- Where both days are restricted, the date alone decides on acceptance, though the weekday is
enough for a start. -/
theorem validate_exact_iff (schedule : String) :
    (validate schedule = .ok () ↔
      Parses schedule ∧ ∃ instant, matchesSchedule schedule instant = true) ↔
    (Parses schedule → ∀ minutes hours days months weekdays,
      words schedule = [minutes, hours, days, months, weekdays] → isAny days = false →
        isAny weekdays = false → possible days months = true) := by
  constructor
  · intro exact parses minutes hours days months weekdays fields restricted weekly
    have ⟨month, dayOfMonth, real, isMonth, onWeekday⟩ := exists_weekdayMatch fields parses
    have onDay : dayMatches days months weekdays (dateOf month dayOfMonth) = true := by
      simp [dayMatches, monthDay_dateOf real, isMonth, onWeekday, restricted, weekly]
    have accepted := exact.mpr ⟨parses, exists_match fields parses onDay⟩
    exact ((validate_iff fields).mp accepted).2 restricted
  · intro dated
    constructor
    · intro accepted
      have ⟨minutes, hours, days, months, weekdays, fields⟩ := fields_of_validate accepted
      have parses := ((validate_iff fields).mp accepted).1
      have ⟨date, onDay⟩ := exists_day fields accepted
      exact ⟨parses, exists_match fields parses onDay⟩
    · rintro ⟨parses, instant, fires⟩
      have ⟨minutes, hours, days, months, weekdays, fields⟩ := fields_of_parses parses
      refine (validate_iff fields).mpr ⟨parses, fun restricted => ?_⟩
      cases weekly : isAny weekdays with
      | false => exact dated parses _ _ _ _ _ fields restricted weekly
      | true =>
        have ⟨_, _, onDay⟩ := (matchesSchedule_iff fields instant).mp fires
        simp only [dayMatches, weekly, Bool.not_true, Bool.and_false, Bool.false_eq_true, if_false,
          decide_eq_true_eq] at onDay
        exact possible_iff.mpr ⟨_, onDay.1, _, onDay.2.1, isDate_monthDay instant⟩

/-- The Mondays of February, and the 30th. -/
theorem mondays_refused : Parses "0 0 30 2 1" ∧ matchesSchedule "0 0 30 2 1" (dateOf 2 5) = true ∧
    validate "0 0 30 2 1" = .error .impossibleDate := by
  unfold Parses
  decide +kernel

/- Timestamps as the controllers write them. -/

/-- A number in so many digits. -/
def padded : (width number : Nat) → List Char
  | 0, _ => []
  | width + 1, number => padded width (number / 10) ++ [(number % 10).digitChar]

def ofDigits (text : List Char) : Option Nat :=
  text.foldlM (fun number digit =>
    if digit.isDigit then some (number * 10 + (digit.toNat - '0'.toNat)) else none) 0

/-- `%Y-%m-%dT%H:%M:%SZ`: how many digits each number has, and what ends it. -/
def timeLayout : List (Nat × Char) := [(4, '-'), (2, '-'), (2, 'T'), (2, ':'), (2, ':'), (2, 'Z')]

def writeNumbers : List (Nat × Char) → List Nat → List Char
  | (width, mark) :: later, number :: rest => padded width number ++ mark :: writeNumbers later rest
  | _, _ => []

def readNumbers : List (Nat × Char) → List Char → Option (List Nat)
  | [], text => if text = [] then some [] else none
  | (width, mark) :: later, text => do
    let number ← ofDigits (text.take width)
    match text.drop width with
    | [] => none
    | head :: rest => if head = mark then (readNumbers later rest).map (number :: ·) else none

theorem length_padded (width number : Nat) : (padded width number).length = width := by
  induction width generalizing number with
  | zero => rfl
  | succ width ih => rw [padded, length_append, ih, length_singleton]

theorem ofDigits_padded {width number : Nat} (fits : number < 10 ^ width) :
    ofDigits (padded width number) = some number := by
  induction width generalizing number with
  | zero => rw [Nat.lt_one_iff.mp fits]; rfl
  | succ width ih =>
    have last : ∀ digit < 10, digit.digitChar.isDigit = true ∧
        digit.digitChar.toNat - '0'.toNat = digit := by decide
    have ⟨isDigit, value⟩ := last _ (Nat.mod_lt number (by decide))
    rw [padded, ofDigits, foldlM_append, ← ofDigits, @ih (number / 10) (by omega)]
    simp only [Option.bind_eq_bind, Option.bind_some, foldlM_cons, foldlM_nil, isDigit, if_true,
      value, Option.pure_def, Option.some.injEq]
    omega

theorem readNumbers_writeNumbers {fields : List (Nat × Char)} {numbers : List Nat}
    (fit : Forall₂ (fun field number => number < 10 ^ field.1) fields numbers) :
    readNumbers fields (writeNumbers fields numbers) = some numbers := by
  induction fit with
  | nil => rfl
  | @cons field number _ _ fits _ ih =>
    have width := length_padded field.1 number
    simp [readNumbers, writeNumbers, take_left' width, drop_left' width, ofDigits_padded fits, ih]

/-- The years or months that have passed, by their lengths, and the days since. -/
def locate : List Nat → Nat → Nat × Nat
  | [], rest => (0, rest)
  | length :: later, rest =>
    if rest < length then (0, rest)
    else ((locate later (rest - length)).1 + 1, (locate later (rest - length)).2)

theorem locate_spec {lengths : List Nat} {days : Nat} (inside : days < lengths.sum) :
    ∃ length, lengths[(locate lengths days).1]? = some length ∧ (locate lengths days).2 < length ∧
      (lengths.take (locate lengths days).1).sum + (locate lengths days).2 = days := by
  induction lengths generalizing days with
  | nil => cases inside
  | cons length later ih =>
    rw [sum_cons] at inside
    unfold locate
    split_ifs with here
    · exact ⟨length, rfl, here, by simp⟩
    · have ⟨other, found, within, whole⟩ := @ih (days - length) (by omega)
      refine ⟨other, found, within, ?_⟩
      rw [take_succ_cons, sum_cons]
      omega

def monthLengths (year : Nat) : List Nat :=
  [31, if isLeap year then 29 else 28, 31, 30, 31, 30, 31, 31, 30, 31, 30, 31]

/-- From 1970 to 9999. -/
def yearLengths : List Nat := (List.range' 1970 8030).map fun year => (monthLengths year).sum

theorem yearLengths_some {index length : Nat} (found : yearLengths[index]? = some length) :
    index < 8030 ∧ length = (monthLengths (1970 + index)).sum := by
  have ⟨bound, isLength⟩ := List.getElem?_eq_some_iff.mp found
  simp only [yearLengths, getElem_map, getElem_range', Nat.one_mul, length_map,
    length_range'] at bound isLength
  exact ⟨bound, isLength.symm⟩

theorem monthLengths_some {year index length : Nat}
    (found : (monthLengths year)[index]? = some length) : index < 12 ∧ length ≤ 31 := by
  have ⟨bound, _⟩ := List.getElem?_eq_some_iff.mp found
  have short : ∀ length ∈ monthLengths year, length ≤ 31 := by
    unfold monthLengths
    cases isLeap year <;> decide
  exact ⟨bound, short length (mem_of_getElem? found)⟩

/-- Of the forms of RFC 3339 only the one that is written is read. -/
def rfc3339 : TimeText where
  format time :=
    let (year, ofYear) := locate yearLengths (time / day).toNat
    let (month, ofMonth) := locate (monthLengths (1970 + year)) ofYear
    .ofList (writeNumbers timeLayout [1970 + year, month + 1, ofMonth + 1, hourOf time,
      minuteOf time, (time / second % 60).toNat])
  parse text :=
    match readNumbers timeLayout text.toList with
    | some [year, month + 1, dayOfMonth + 1, hours, minutes, seconds] =>
      if 1970 ≤ year ∧ (monthLengths year)[month]?.any (dayOfMonth < ·) ∧ hours < 24 ∧
          minutes < 60 ∧ seconds < 60 then
        let days := (yearLengths.take (year - 1970)).sum + ((monthLengths year).take month).sum +
          dayOfMonth
        some (hms (days * day) hours minutes + seconds * second)
      else none
    | _ => none
  roundTrip time positive bounded := by
    have few : time / day < 2932897 := Int.ediv_lt_of_lt_mul (by decide) bounded
    have all : yearLengths.sum = 2932897 := by decide +kernel
    have ⟨length, isYear, ofYear, isDays⟩ := @locate_spec yearLengths (time / day).toNat (by omega)
    have ⟨years, isLength⟩ := yearLengths_some isYear
    have ⟨_, isMonth, ofMonth, isDay⟩ := locate_spec (isLength ▸ ofYear)
    have ⟨months, days⟩ := monthLengths_some isMonth
    have hours : hourOf time < 24 := by unfold hourOf; omega
    have minutes : minuteOf time < 60 := by unfold minuteOf; omega
    have seconds : (time / second % 60).toNat < 60 := by omega
    dsimp only
    rw [String.toList_ofList, readNumbers_writeNumbers (by simp [timeLayout]; omega)]
    simp only [isMonth, Option.any_some, ofMonth, decide_true, hours, minutes, seconds, and_self,
      Nat.le_add_right, if_true, Nat.add_sub_cancel_left, Nat.add_assoc, isDay, isDays,
      Option.some.injEq]
    unfold hms floor hourOf minuteOf day minute second
    omega

example : rfc3339.format (1709208000 * second) = "2024-02-29T12:00:00Z" := by decide +kernel

end Rustkube.Cron
