import SourceMerge.Text

/-!
# SourceMerge.Calendar

Dates, and formats that write them.  A percent sign and a letter stand for a
part of the date, two percent signs for one, and everything else for itself; a
letter without a meaning is kept with its sign.  The time of day is midnight.
-/

namespace SourceMerge

/-- A day of the Gregorian calendar. -/
structure Date where
  year : Nat := 1970
  month : Nat := 1
  day : Nat := 1

namespace Date

/-- The number of days before the month in a year without a leap day. -/
def daysBefore (month : Nat) : Nat :=
  [0, 31, 59, 90, 120, 151, 181, 212, 243, 273, 304, 334].getD (month - 1) 0

/-- Whether a year has a leap day. -/
def isLeap (year : Nat) : Bool := year % 4 = 0 && (year % 100 ≠ 0 || year % 400 = 0)

/-- The day's number in its year, counted from one. -/
def dayOfYear (d : Date) : Nat :=
  daysBefore d.month + d.day + if 2 < d.month && isLeap d.year then 1 else 0

/-- The number of days since Monday. -/
def weekday (d : Date) : Nat :=
  let y := d.year - 1
  (y * 365 + y / 4 - y / 100 + y / 400 + d.dayOfYear + 6) % 7

/-- The names of the months. -/
def monthNames : List Text :=
  ["January", "February", "March", "April", "May", "June", "July", "August", "September",
    "October", "November", "December"]

/-- The names of the days of the week. -/
def dayNames : List Text :=
  ["Monday", "Tuesday", "Wednesday", "Thursday", "Friday", "Saturday", "Sunday"]

/-- The date as year, month and day. -/
def iso (d : Date) : Text :=
  Text.padded 4 d.year ++ "-" ++ Text.padded 2 d.month ++ "-" ++ Text.padded 2 d.day

/-- What a letter behind a percent sign stands for. -/
def part (d : Date) (c : Char) : Text :=
  match c with
  | '%' => ['%']
  | 'Y' => Text.padded 4 d.year
  | 'm' => Text.padded 2 d.month
  | 'd' => Text.padded 2 d.day
  | 'y' => Text.padded 2 (d.year % 100)
  | 'C' => Text.padded 2 (d.year / 100)
  | 'j' => Text.padded 3 d.dayOfYear
  | 'e' => List.replicate (2 - (Text.ofNat d.day).length) ' ' ++ Text.ofNat d.day
  | 'B' => monthNames.getD (d.month - 1) []
  | 'b' => (monthNames.getD (d.month - 1) []).take 3
  | 'h' => (monthNames.getD (d.month - 1) []).take 3
  | 'A' => dayNames.getD d.weekday []
  | 'a' => (dayNames.getD d.weekday []).take 3
  | 'u' => Text.ofNat (d.weekday + 1)
  | 'w' => Text.ofNat ((d.weekday + 1) % 7)
  | 'F' => d.iso
  | 'D' => Text.padded 2 d.month ++ "/" ++ Text.padded 2 d.day ++ "/" ++ Text.padded 2 (d.year % 100)
  | 'H' => "00"
  | 'I' => "12"
  | 'M' => "00"
  | 'S' => "00"
  | 'f' => "000000"
  | 'p' => "AM"
  | 'T' => "00:00:00"
  | 'R' => "00:00"
  | 'n' => ['\n']
  | 't' => ['\t']
  | 'z' => []
  | 'Z' => []
  | c => ['%', c]

/-- The date in a format. -/
def format (d : Date) : Text → Text
  | [] => []
  | '%' :: c :: rest => d.part c ++ format d rest
  | c :: rest => c :: format d rest

end Date

end SourceMerge
