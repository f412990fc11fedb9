import Waitress.Decimal
import Waitress.Library.Calendar
import Waitress.Library.Leading
import Waitress.Utilities

/-!
# Dates

A date that `build_http_date` writes is read back by `parse_http_date` as the
second it was written for, up to the year 9999.
-/

namespace Waitress

open Regex

/-- `time.gmtime`, for the seconds since the epoch, which was a Thursday. -/
def gmtime (seconds : Nat) : GmTime :=
  let days := seconds / 86400
  let (year, month, day) := Calendar.civil days
  { year, month, day
    hh := seconds / 3600 % 24
    mm := seconds / 60 % 60
    ss := seconds % 60
    wd := (days + 3) % 7 }

/-- `calendar.timegm`, which counts the days by `datetime.date`. -/
def timegm (time : GmTime) : Except Exc Int :=
  if 1 ≤ time.year ∧ time.year ≤ 9999 ∧ 1 ≤ time.month ∧ time.month ≤ 12 then
    let days : Int := Calendar.toordinal time.year time.month 1 - Calendar.toordinal 1970 1 1 +
      time.day - 1
    .ok (((days * 24 + time.hh) * 60 + time.mm) * 60 + time.ss)
  else .error .valueError

/-! ### The expressions -/

def shortDays : List Str :=
  ["sun", "mon", "tue", "wed", "thu", "fri", "sat"].map String.toList

def longDays : List Str :=
  ["sunday", "monday", "tuesday", "wednesday", "thursday", "friday", "saturday"].map String.toList

def months : List Str :=
  ["jan", "feb", "mar", "apr", "may", "jun", "jul", "aug", "sep", "oct", "nov", "dec"].map
    String.toList

/-- The number of a month; another key raises a `KeyError`. -/
def monmap (month : Str) : Except Exc Nat :=
  match months.findIdx? (· = month) with
  | some i => .ok (i + 1)
  | none => .error .exception

/-- `join` of expressions. -/
def joinRe (field : String) : List (Regex Char) → Regex Char
  | [] => .empty
  | [part] => part
  | part :: rest => .seq part (.seq (.literal field.toList) (joinRe field rest))

def decimalRe : Regex Char := .cls isDecimalChar

def shortDayReg : Regex Char := .group "1" (oneOf shortDays)

def longDayReg : Regex Char := .group "1" (oneOf longDays)

def dateReg : Regex Char := .group "2" (.seq decimalRe (.opt decimalRe))

def monthsReg : Regex Char := .group "3" (oneOf months)

def yearReg : Regex Char := .group "4" (.plus true decimalRe)

def hmsReg : Regex Char :=
  joinRe ":" (["5", "6", "7"].map fun name => .group name (.seq decimalRe decimalRe))

def rfc822Reg : Regex Char :=
  joinRe " " [.seq shortDayReg (.literal ",".toList), dateReg, monthsReg, yearReg, hmsReg,
    .literal "gmt".toList]

def rfc850Reg : Regex Char :=
  joinRe " " [.seq longDayReg (.literal ",".toList), joinRe "-" [dateReg, monthsReg, yearReg],
    hmsReg, .literal "gmt".toList]

/-- The fields of the groups, once the text of the year is known. -/
def unpackFields (m : Captures Char) (yr : Str) : Except Exc GmTime := do
  let group := fun name => (m.lookup name).getD []
  let year ← natOfStr yr
  let month ← monmap (group "3")
  let day ← natOfStr (group "2")
  let hh ← natOfStr (group "5")
  let mm ← natOfStr (group "6")
  let ss ← natOfStr (group "7")
  return { year, month, day, hh, mm, ss, wd := 0 }

def unpackRfc822 (m : Captures Char) : Except Exc GmTime :=
  unpackFields m ((m.lookup "4").getD [])

/-- Years of two digits are in the twentieth century. -/
def unpackRfc850 (m : Captures Char) : Except Exc GmTime :=
  let yr := (m.lookup "4").getD []
  unpackFields m (if yr.length = 2 then "19".toList ++ yr else yr)

def parseHttpDate (d : Str) : Except Exc Int :=
  let d := Str.lower d
  match rfc850Reg.matchPrefix? d with
  | some (m, []) => unpackRfc850 m >>= timegm
  | _ =>
      match rfc822Reg.matchPrefix? d with
      | some (m, []) => unpackRfc822 m >>= timegm
      | _ => .ok 0

/-! ### The numbers of a date -/

theorem decimalValue_padded (width n : Nat) : decimalValue (padded width '0' n) = n := by
  have zeros : ∀ count : Nat, decimalValue (List.replicate count '0' ++ natStr n) = n := by
    intro count
    induction count with
    | zero => exact decimalValue_natStr n
    | succ count inductionHypothesis => exact inductionHypothesis
  exact zeros _

theorem padded_isDecimal (width n : Nat) : IsDecimal (padded width '0' n) := by
  obtain ⟨nonempty, digits⟩ := natStr_isDecimal n
  refine ⟨List.append_ne_nil_of_right_ne_nil _ nonempty, ?_⟩
  rw [padded, List.all_append, digits, Bool.and_true]
  exact List.all_eq_true.mpr fun c mem => List.eq_of_mem_replicate mem ▸ rfl

theorem length_padded {width n : Nat} (positive : 0 < width) (small : n < 10 ^ width) :
    (padded width '0' n).length = width := by
  have bound : (natStr n).length ≤ width :=
    (Nat.length_toDigits_le_iff (by decide) positive).mpr small
  rw [padded, List.length_append, List.length_replicate, Nat.sub_add_cancel bound]

/-- Years of four digits are written as they are. -/
theorem padded_year {year : Nat} (large : 1000 ≤ year) : padded 4 ' ' year = natStr year := by
  have bound : ¬ (natStr year).length ≤ 3 := by
    rw [natStr, Nat.length_toDigits_le_iff (by decide) (by decide)]
    omega
  rw [padded, Nat.sub_eq_zero_of_le (by omega)]
  rfl

structure TwoDigits (text : Str) (n : Nat) : Prop where
  digits : ∃ c d, isDecimalChar c = true ∧ isDecimalChar d = true ∧ text = [c, d]
  value : natOfStr text = .ok n

theorem padded_twoDigits {n : Nat} (small : n < 100) : TwoDigits (padded 2 '0' n) n := by
  have length : (padded 2 '0' n).length = 2 := length_padded (by decide) small
  have decimal := padded_isDecimal 2 n
  constructor
  · obtain ⟨c, d, text⟩ := List.length_eq_two.mp length
    have digits := decimal.2
    rw [text, List.all_cons, List.all_cons, List.all_nil, Bool.and_true, Bool.and_eq_true] at digits
    exact ⟨c, d, digits.1, digits.2, text⟩
  · rw [decimal.natOfStr, length, decimalValue_padded]
    rfl

theorem IsDecimal.lower {text : Str} (decimal : IsDecimal text) : Str.lower text = text := by
  refine (List.map_congr_left fun c mem => ?_).trans (List.map_id _)
  have digit := List.all_eq_true.mp decimal.2 c mem
  rw [isDecimalChar, Bool.and_eq_true, decide_eq_true_eq, decide_eq_true_eq] at digit
  have low : 48 ≤ c.toNat := digit.1
  have high : c.toNat ≤ 57 := digit.2
  have noCapital : ¬ 'A' ≤ c := fun capital =>
    absurd (show 65 ≤ c.toNat from capital) (by omega)
  simp only [Str.lowerChar, noCapital, decide_false, Bool.false_and, Bool.false_or, id]
  rw [if_neg (by simp; omega), if_neg (by omega), if_neg (by omega), if_neg (by omega),
    if_neg (by omega)]

/-! ### Which expression takes a date -/

section Expressions

variable {part : Regex Char} {field : String} {parts : List (Regex Char)}
variable {word more rest day date month year hh mm ss : Str} {n : Nat}
variable {captures moreCaptures : Captures Char}

theorem leads_join (front : Leads part word (field.toList ++ more ++ rest) captures)
    (back : Leads (joinRe field parts) more rest moreCaptures) (nonempty : parts ≠ []) :
    Leads (joinRe field (part :: parts)) (word ++ (field.toList ++ more)) rest
      (moreCaptures ++ captures) := by
  have separator : Leads (.literal field.toList) field.toList (more ++ rest) [] := leads_literal _
  have behind : Leads (.seq (.literal field.toList) (joinRe field parts)) (field.toList ++ more) rest
      (moreCaptures ++ []) := separator.seq back
  rw [List.append_nil] at behind
  rw [joinRe.eq_3 _ _ _ nonempty]
  exact front.seq behind

theorem leads_decimal {c : Char} (isDigit : isDecimalChar c = true) :
    Leads decimalRe [c] rest [] := leads_cls isDigit

theorem TwoDigits.leads (number : TwoDigits word n) (name : String) :
    Leads (.group name (.seq decimalRe decimalRe)) word rest [(name, word)] := by
  obtain ⟨c, d, first, second, rfl⟩ := number.digits
  have both : Leads (.seq decimalRe decimalRe) [c, d] rest [] :=
    (leads_decimal first).seq (leads_decimal second)
  exact both.group

theorem TwoDigits.leads_date (number : TwoDigits word n) :
    Leads dateReg word rest [("2", word)] := by
  obtain ⟨c, d, first, second, rfl⟩ := number.digits
  have optional : Leads (.opt decimalRe) [d] rest [] := (leads_decimal second).left
  have both : Leads (.seq decimalRe (.opt decimalRe)) [c, d] rest [] :=
    (leads_decimal first).seq optional
  exact both.group

theorem leads_year (decimal : IsDecimal word) (stops : ∀ c ∈ rest.head?, isDecimalChar c = false) :
    Leads yearReg word rest [("4", word)] := by
  have digits : Leads (.plus true decimalRe) word rest [] :=
    leads_plus_cls decimal.1 (List.all_eq_true.mp decimal.2) stops
  exact digits.group

theorem leads_hms {h m s : Nat} (hours : TwoDigits hh h) (minutes : TwoDigits mm m)
    (seconds : TwoDigits ss s) :
    Leads hmsReg (hh ++ (":".toList ++ (mm ++ (":".toList ++ ss)))) rest
      [("7", ss), ("6", mm), ("5", hh)] := by
  have last : Leads (joinRe ":" [.group "7" (.seq decimalRe decimalRe)]) ss rest [("7", ss)] :=
    seconds.leads "7"
  have lastTwo := leads_join (minutes.leads "6") last (by simp)
  exact leads_join (hours.leads "5") lastTwo (by simp)

theorem leads_day (isDay : day ∈ shortDays) :
    Leads (.seq shortDayReg (.literal ",".toList)) (day ++ ",".toList) rest [("1", day)] := by
  have lengths : ∀ d ∈ shortDays, ∀ d' ∈ shortDays, d'.length = d.length := by decide
  have found : Leads (oneOf shortDays) day (",".toList ++ rest) [] :=
    leads_oneOf isDay (lengths day isDay)
  have comma : Leads (.literal ",".toList) ",".toList rest [] := leads_literal _
  exact found.group.seq comma

theorem leads_month (isMonth : month ∈ months) : Leads monthsReg month rest [("3", month)] := by
  have lengths : ∀ m ∈ months, ∀ m' ∈ months, m'.length = m.length := by decide
  have found : Leads (oneOf months) month rest [] := leads_oneOf isMonth (lengths month isMonth)
  exact found.group

def dateText (day date month year hh mm ss : Str) : Str :=
  day ++ ",".toList ++ (" ".toList ++ (date ++ (" ".toList ++ (month ++ (" ".toList ++ (year ++
    (" ".toList ++ ((hh ++ (":".toList ++ (mm ++ (":".toList ++ ss)))) ++
      (" ".toList ++ "gmt".toList)))))))))

theorem rfc822_takes_date {n h m s : Nat} (isDay : day ∈ shortDays) (isDate : TwoDigits date n)
    (isMonth : month ∈ months) (isYear : IsDecimal year) (hours : TwoDigits hh h)
    (minutes : TwoDigits mm m) (seconds : TwoDigits ss s) :
    rfc822Reg.matchPrefix? (dateText day date month year hh mm ss) =
      some ([("7", ss), ("6", mm), ("5", hh), ("4", year), ("3", month), ("2", date),
        ("1", day)], []) := by
  have gmt : Leads (joinRe " " [.literal "gmt".toList]) "gmt".toList [] [] := leads_literal _
  have fromTime := leads_join (leads_hms hours minutes seconds) gmt (by simp)
  have fromYear := leads_join (leads_year isYear (by rintro c ⟨⟩; rfl)) fromTime (by simp)
  have fromMonth := leads_join (leads_month isMonth) fromYear (by simp)
  have fromDate := leads_join isDate.leads_date fromMonth (by simp)
  have whole := leads_join (leads_day isDay) fromDate (by simp)
  rw [Leads, List.append_nil] at whole
  exact whole

/-- The fourth character of a date is a comma, and a letter in the older format. -/
theorem rfc850_misses_date (isDay : day ∈ shortDays) :
    rfc850Reg.matchPrefix? (dateText day date month year hh mm ss) = none := by
  have fourth : ∀ d ∈ shortDays, ∀ long ∈ longDays, long.take 4 ≠ d ++ ",".toList := by decide
  have lengths : ∀ d ∈ shortDays, d.length = 3 := by decide
  have longLengths : ∀ long ∈ longDays, 4 ≤ long.length := by decide
  refine Option.eq_none_iff_forall_ne_some.mpr fun found result => ?_
  obtain ⟨front, split, matched⟩ := matches_of_matchPrefix? result
  rw [rfc850Reg, joinRe.eq_3 _ _ _ (by simp)] at matched
  obtain ⟨named, _, _, _, isNamed, -, rfl, -⟩ := matches_seq.mp matched
  obtain ⟨long, _, _, _, isLong, -, rfl, -⟩ := matches_seq.mp isNamed
  obtain ⟨_, isOne, -⟩ := matches_group.mp isLong
  obtain ⟨listed, -⟩ := matches_oneOf.mp isOne
  have starts := congrArg (List.take 4) split
  have dayStarts : (day ++ ",".toList).take 4 = day ++ ",".toList :=
    List.take_of_length_le (by simp [lengths day isDay])
  rw [dateText, List.take_append_of_le_length (by simp [lengths day isDay]), dayStarts] at starts
  simp only [List.append_assoc] at starts
  rw [List.take_append_of_le_length (longLengths long listed)] at starts
  exact fourth day isDay long listed starts.symm

end Expressions

/-! ### The round trip -/

/-- The fields are in the ranges of the date format. -/
structure GmTime.InRange (time : GmTime) : Prop where
  year_low : 1970 ≤ time.year
  year_high : time.year ≤ 9999
  month_pos : 1 ≤ time.month
  month_le : time.month ≤ 12
  day : time.day < 100
  hh : time.hh < 100
  mm : time.mm < 100
  ss : time.ss < 100
  wd : time.wd < 7

theorem lower_weekdayname {wd : Nat} (small : wd < 7) :
    Str.lower (weekdayname.getD wd "").toList ∈ shortDays :=
  (by decide : ∀ wd < 7, Str.lower (weekdayname.getD wd "").toList ∈ shortDays) wd small

theorem lower_monthname {month : Nat} (positive : 1 ≤ month) (small : month ≤ 12) :
    Str.lower (monthname.getD month "").toList ∈ months ∧
      monmap (Str.lower (monthname.getD month "").toList) = .ok month := by
  have each : ∀ month < 13, 1 ≤ month → Str.lower (monthname.getD month "").toList ∈ months ∧
      monmap (Str.lower (monthname.getD month "").toList) = .ok month := by decide
  exact each month (by omega) positive

theorem lower_buildHttpDate {time : GmTime} (range : time.InRange) :
    Str.lower (buildHttpDate time) =
      dateText (Str.lower (weekdayname.getD time.wd "").toList) (padded 2 '0' time.day)
        (Str.lower (monthname.getD time.month "").toList) (natStr time.year)
        (padded 2 '0' time.hh) (padded 2 '0' time.mm) (padded 2 '0' time.ss) := by
  have number : ∀ n, Str.lower (padded 2 '0' n) = padded 2 '0' n := fun n =>
    (padded_isDecimal 2 n).lower
  have year : Str.lower (natStr time.year) = natStr time.year := (natStr_isDecimal time.year).lower
  have fourDigits := padded_year (show 1000 ≤ time.year by have := range.year_low; omega)
  rw [buildHttpDate, fourDigits]
  simp only [Str.lower, List.map_append] at number year ⊢
  rw [number, number, number, number, year]
  simp only [dateText, List.append_assoc]
  rfl

theorem unpackRfc822_eq {wd date mon year hh mm ss : Str} {y month d h m s : Nat}
    (isYear : natOfStr year = .ok y) (isMonth : monmap mon = .ok month) (isDate : TwoDigits date d)
    (hours : TwoDigits hh h) (minutes : TwoDigits mm m) (seconds : TwoDigits ss s) :
    unpackRfc822 [("7", ss), ("6", mm), ("5", hh), ("4", year), ("3", mon), ("2", date), ("1", wd)] =
      .ok { year := y, month, day := d, hh := h, mm := m, ss := s, wd := 0 } := by
  simp [unpackRfc822, unpackFields, List.lookup, isYear, isMonth, isDate.value, hours.value,
    minutes.value, seconds.value, bind, Except.bind, pure, Except.pure]

/-- A date in the range of the format is read back with all its fields but the weekday,
which `timegm` does not use. -/
theorem parseHttpDate_eq_timegm {time : GmTime} (range : time.InRange) :
    parseHttpDate (buildHttpDate time) = timegm time := by
  have isDay := lower_weekdayname range.wd
  obtain ⟨isMonth, month⟩ := lower_monthname range.month_pos range.month_le
  have day := padded_twoDigits range.day
  have hh := padded_twoDigits range.hh
  have mm := padded_twoDigits range.mm
  have ss := padded_twoDigits range.ss
  have yearDecimal := natStr_isDecimal time.year
  have year : natOfStr (natStr time.year) = .ok time.year := by
    have bound : (natStr time.year).length ≤ 4 :=
      (Nat.length_toDigits_le_iff (by decide) (by decide)).mpr (Nat.lt_succ_of_le range.year_high)
    rw [yearDecimal.natOfStr, decimalValue_natStr, if_pos (Nat.le_trans bound (by decide))]
  rw [parseHttpDate, lower_buildHttpDate range]
  simp only [rfc850_misses_date isDay,
    rfc822_takes_date isDay day isMonth yearDecimal hh mm ss,
    unpackRfc822_eq year month day hh mm ss]
  rfl

theorem gmtime_inRange {seconds : Nat} (early : (gmtime seconds).year ≤ 9999) :
    (gmtime seconds).InRange := by
  obtain ⟨yearLow, monthLow, monthHigh, dayLow, dayHigh, -⟩ := Calendar.civil_spec (seconds / 86400)
  refine ⟨yearLow, early, monthLow, monthHigh, Nat.lt_of_le_of_lt dayHigh (by decide), ?_, ?_, ?_,
    Nat.mod_lt _ (by decide)⟩
  · exact Nat.lt_trans (Nat.mod_lt _ (by decide)) (by decide : 24 < 100)
  · exact Nat.lt_trans (Nat.mod_lt _ (by decide)) (by decide : 60 < 100)
  · exact Nat.lt_trans (Nat.mod_lt _ (by decide)) (by decide : 60 < 100)

/-- The fields of a second stand for that second. -/
theorem timegm_gmtime {seconds : Nat} (early : (gmtime seconds).year ≤ 9999) :
    timegm (gmtime seconds) = .ok (seconds : Int) := by
  obtain ⟨yearLow, monthLow, monthHigh, dayLow, dayHigh, ordinal⟩ :=
    Calendar.civil_spec (seconds / 86400)
  rw [timegm, if_pos ⟨Nat.le_trans (by decide) yearLow, early, monthLow, monthHigh⟩]
  have dayNumber : (Calendar.toordinal (gmtime seconds).year (gmtime seconds).month 1 : Int) -
      Calendar.toordinal 1970 1 1 + (gmtime seconds).day - 1 = (seconds / 86400 : Nat) := by
    change (Calendar.toordinal (Calendar.civil (seconds / 86400)).1
        (Calendar.civil (seconds / 86400)).2.1 1 : Int) - Calendar.toordinal 1970 1 1 +
      (Calendar.civil (seconds / 86400)).2.2 - 1 = (seconds / 86400 : Nat)
    simp only [Calendar.toordinal] at ordinal ⊢
    omega
  have hh : (gmtime seconds).hh = seconds / 3600 % 24 := rfl
  have mm : (gmtime seconds).mm = seconds / 60 % 60 := rfl
  have ss : (gmtime seconds).ss = seconds % 60 := rfl
  simp only [dayNumber, hh, mm, ss]
  refine congrArg Except.ok ?_
  omega

/-- Dates round-trip, up to the last year that `datetime.date` knows. -/
theorem parseHttpDate_buildHttpDate (seconds : Nat) (early : (gmtime seconds).year ≤ 9999) :
    parseHttpDate (buildHttpDate (gmtime seconds)) = .ok (seconds : Int) := by
  rw [parseHttpDate_eq_timegm (gmtime_inRange early), timegm_gmtime early]

/-- The last second of the year 9999. -/
theorem parseHttpDate_buildHttpDate_last :
    (gmtime 253402300799).year ≤ 9999 ∧
      parseHttpDate (buildHttpDate (gmtime 253402300799)) = .ok 253402300799 := by
  have early : (gmtime 253402300799).year ≤ 9999 := by decide +kernel
  exact ⟨early, parseHttpDate_buildHttpDate 253402300799 early⟩

example : parseHttpDate "Tuesday, 08-Feb-94 14:15:29 GMT".toList = .ok 760716929 := by
  decide +kernel

example : (gmtime 253402300800).year = 10000 := by decide +kernel

end Waitress
