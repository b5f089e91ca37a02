import Telemux.Text.Decimal
import Telemux.Time.Calendar

/-!
# Timestamps of package `time`

`time.Parse` and `Format` with the layout `time.RFC3339`.  Instants are counted in
nanoseconds from the first of January 1970, and are formatted in UTC.  Parsing
takes more than RFC 3339 has, and formatting writes years that it has not.
-/

namespace Telemux
namespace Time

open Text

def second : Int := 1000000000

def unixEpoch : Int := 719528

/-!
## Parsing
-/

def getnum (fixed : Bool) (text : List Char) : Option (Nat × List Char) :=
  match readDigits 2 text with
  | some r => some r
  | none => if fixed then none else readDigits 1 text

def skip (c : Char) : List Char -> Option (List Char)
  | d :: rest => if d = c then some rest else none
  | [] => none

/-- A fraction of a second, if there is one; nine digits of it count. -/
def getFraction : List Char -> Nat × List Char
  | mark :: c :: rest =>
      if (mark = '.' ∨ mark = ',') ∧ c.isDigit = true then
        let digits := ((c :: rest).takeWhile Char.isDigit).take 9
        (Nat.ofDigitChars 10 digits 0 * 10 ^ (9 - digits.length),
          (c :: rest).dropWhile Char.isDigit)
      else (0, mark :: c :: rest)
  | text => (0, text)

/-- The offset of a zone, in seconds; hours go up to 24, minutes up to 60. -/
def getZone : List Char -> Option (Int × List Char)
  | 'Z' :: rest => some (0, rest)
  | sign :: h :: h' :: ':' :: m :: m' :: rest => do
      let (hr, _) <- getnum true [h, h']
      let (mm, _) <- getnum true [m, m']
      if 24 < hr ∨ 60 < mm then none
      else if sign = '+' then some (((hr * 60 + mm) * 60 : Int), rest)
      else if sign = '-' then some (-((hr * 60 + mm) * 60 : Int), rest)
      else none
  | _ => none

structure Stamp where
  date : Date
  hour : Nat
  min : Nat
  sec : Nat
  nsec : Nat
  offset : Int

def Stamp.instant (s : Stamp) : Int :=
  ((s.date.dayNumber - unixEpoch) * 86400 + (s.hour * 3600 + s.min * 60 + s.sec) - s.offset) *
    second + s.nsec

/-- `time.Parse(time.RFC3339, value)`. -/
def Parse (value : String) : Option Int := do
  let (year, text) <- readDigits 4 value.toList
  let text <- skip '-' text
  let (month, text) <- getnum true text
  let text <- skip '-' text
  let (day, text) <- getnum true text
  let text <- skip 'T' text
  let (hour, text) <- getnum false text
  let text <- skip ':' text
  let (min, text) <- getnum true text
  let text <- skip ':' text
  let (sec, text) <- getnum true text
  let (nsec, text) := getFraction text
  let (offset, text) <- getZone text
  let date : Date := ⟨year, month, day⟩
  if text = [] ∧ date.Valid ∧ hour < 24 ∧ min < 60 ∧ sec < 60 then
    some (Stamp.instant ⟨date, hour, min, sec, nsec, offset⟩)
  else none

/-!
## Formatting
-/

def appendInt (x : Int) (width : Nat) : List Char :=
  if x < 0 then '-' :: padded width (-x).toNat else padded width x.toNat

def dayOf (t : Int) : Int :=
  t / second / 86400 + unixEpoch

def secondOf (t : Int) : Nat :=
  (t / second % 86400).toNat

def afterYear (month day hour min sec : Nat) : List Char :=
  '-' :: (padded 2 month ++ '-' :: (padded 2 day ++ 'T' :: (padded 2 hour ++
    ':' :: (padded 2 min ++ ':' :: (padded 2 sec ++ ['Z'])))))

/-- `t.UTC().Format(time.RFC3339)`. -/
def Format (t : Int) : String :=
  let date := dateOf (dayOf t)
  let sec := secondOf t
  String.ofList (appendInt date.year 4 ++
    afterYear date.month date.day (sec / 3600) (sec % 3600 / 60) (sec % 60))

/-!
## The grammar of RFC 3339

Leap seconds aside, which package `time` does not know.
-/

/-- `.` and digits, or nothing. -/
def IsFraction (text : List Char) : Prop :=
  text = [] ∨ exists digits, digits ≠ [] ∧ digits.all Char.isDigit = true ∧ text = '.' :: digits

def IsZone (text : List Char) : Prop :=
  text = ['Z'] ∨ exists sign hour min, (sign = '+' ∨ sign = '-') ∧ hour < 24 ∧ min < 60 ∧
    text = sign :: (padded 2 hour ++ ':' :: padded 2 min)

def IsTimestamp (text : List Char) : Prop :=
  exists (year month day hour min sec : Nat) (fraction zone : List Char),
    year < 10 ^ 4 ∧ (Date.mk year month day).Valid ∧ hour < 24 ∧ min < 60 ∧ sec < 60 ∧
      IsFraction fraction ∧ IsZone zone ∧
      text = padded 4 year ++ '-' :: (padded 2 month ++ '-' :: (padded 2 day ++ 'T' ::
        (padded 2 hour ++ ':' :: (padded 2 min ++ ':' :: (padded 2 sec ++ (fraction ++ zone))))))

/-!
## Reading back
-/

theorem getnum_padded (fixed : Bool) {n : Nat} (h : n < 10 ^ 2) (rest : List Char) :
    getnum fixed (padded 2 n ++ rest) = some (n, rest) := by
  unfold getnum
  rw [readDigits_padded (by decide) h]

theorem read_bind {α β : Type} (a : α) (f : α -> Option β) : (some a >>= f) = f a :=
  rfl

theorem skip_self (c : Char) (rest : List Char) : skip c (c :: rest) = some rest :=
  if_pos rfl

theorem parse_spelled {year month day hour min sec : Nat} (hyear : year < 10 ^ 4)
    (hdate : (Date.mk year month day).Valid) (hday : day < 10 ^ 2) (hhour : hour < 24)
    (hmin : min < 60) (hsec : sec < 60) :
    Parse (String.ofList (padded 4 year ++ afterYear month day hour min sec)) =
      some (Stamp.instant ⟨⟨year, month, day⟩, hour, min, sec, 0, 0⟩) := by
  have hmonth : month < 10 ^ 2 := by
    have hle : month ≤ 12 := hdate.month_le
    omega
  unfold Parse afterYear
  rw [String.toList_ofList, readDigits_padded (by decide) hyear, read_bind]
  dsimp only
  rw [skip_self, read_bind, getnum_padded true hmonth, read_bind]
  dsimp only
  rw [skip_self, read_bind, getnum_padded true hday, read_bind]
  dsimp only
  rw [skip_self, read_bind, getnum_padded false (by omega), read_bind]
  dsimp only
  rw [skip_self, read_bind, getnum_padded true (by omega), read_bind]
  dsimp only
  rw [skip_self, read_bind, getnum_padded true (by omega), read_bind]
  simp only [getFraction, getZone]
  rw [read_bind, if_pos ⟨rfl, hdate, hhour, hmin, hsec⟩]

def yearStart (year : Int) : Int :=
  (daysBeforeYear year - unixEpoch) * 86400 * second

def InRange (t : Int) : Prop :=
  yearStart 0 ≤ t ∧ t < yearStart 10000

theorem le_year_iff (year t : Int) : year ≤ (dateOf (dayOf t)).year <-> yearStart year ≤ t := by
  show year ≤ yearOf (dayOf t) <-> _
  rw [le_yearOf_iff]
  unfold dayOf yearStart second
  omega

theorem secondOf_lt (t : Int) : secondOf t < 86400 := by
  unfold secondOf
  omega

theorem instant_spelled (t : Int) :
    Stamp.instant ⟨dateOf (dayOf t), secondOf t / 3600, secondOf t % 3600 / 60,
      secondOf t % 60, 0, 0⟩ = t / second * second := by
  have hsecond : ((secondOf t / 3600 : Nat) * 3600 + (secondOf t % 3600 / 60 : Nat) * 60 +
      (secondOf t % 60 : Nat) : Int) = t / second % 86400 := by
    unfold secondOf
    omega
  unfold Stamp.instant
  rw [dayNumber_dateOf]
  dsimp only
  rw [hsecond]
  unfold dayOf
  have hday : (t / second / 86400 + unixEpoch - unixEpoch) * 86400 + t / second % 86400 =
      t / second := by
    omega
  rw [hday]
  simp

theorem format_fields {t : Int} (h : InRange t) :
    0 ≤ (dateOf (dayOf t)).year ∧ (dateOf (dayOf t)).year.toNat < 10 ^ 4 ∧
      (dateOf (dayOf t)).day < 10 ^ 2 ∧ secondOf t / 3600 < 24 ∧
      secondOf t % 3600 / 60 < 60 ∧ secondOf t % 60 < 60 := by
  have hlow := (le_year_iff 0 t).mpr h.left
  have hhigh := mt (le_year_iff 10000 t).mp (Int.not_le.mpr h.right)
  have hday := daysIn_le (dateOf (dayOf t)).month (dateOf (dayOf t)).year
  have hvalid := (dateOf_valid (dayOf t)).day_le
  have hsec := secondOf_lt t
  omega

theorem format_date {t : Int} (h : InRange t) :
    (⟨(dateOf (dayOf t)).year.toNat, (dateOf (dayOf t)).month, (dateOf (dayOf t)).day⟩ : Date) =
      dateOf (dayOf t) := by
  rw [Int.toNat_of_nonneg (format_fields h).left]

theorem format_eq {t : Int} (h : InRange t) :
    Format t = String.ofList (padded 4 (dateOf (dayOf t)).year.toNat ++
      afterYear (dateOf (dayOf t)).month (dateOf (dayOf t)).day (secondOf t / 3600)
        (secondOf t % 3600 / 60) (secondOf t % 60)) := by
  unfold Format
  dsimp only
  rw [appendInt, if_neg (Int.not_lt.mpr (format_fields h).left)]

theorem parse_format {t : Int} (h : InRange t) :
    Parse (Format t) = some (t / second * second) := by
  rcases format_fields h with ⟨_, hyear, hday, hhour, hmin, hsec⟩
  have hdate := format_date h
  have hvalid := dateOf_valid (dayOf t)
  rw [← hdate] at hvalid
  rw [format_eq h, parse_spelled hyear hvalid hday hhour hmin hsec, hdate, instant_spelled]

example : (Parse "2026-07-01T02:30:00.5+02:30").map Format = some "2026-07-01T00:00:00Z" := by
  decide +kernel

theorem format_timestamp {t : Int} (h : InRange t) : IsTimestamp (Format t).toList := by
  rcases format_fields h with ⟨_, hyear, _, hhour, hmin, hsec⟩
  have hvalid := dateOf_valid (dayOf t)
  rw [← format_date h] at hvalid
  rw [format_eq h, String.toList_ofList]
  exact ⟨_, _, _, _, _, _, [], ['Z'], hyear, hvalid, hhour, hmin, hsec, .inl rfl, .inl rfl, rfl⟩

theorem skip_digit {c : Char} {rest : List Char} (hc : c.isDigit = true) :
    skip '-' (c :: rest) = none := by
  refine if_neg ?_
  intro heq
  subst heq
  exact absurd hc (by decide)

theorem parse_format_none {t : Int} (h : ¬ InRange t) : Parse (Format t) = none := by
  unfold Parse Format
  dsimp only
  rw [String.toList_ofList]
  by_cases hneg : (dateOf (dayOf t)).year < 0
  · rw [appendInt, if_pos hneg, List.cons_append, readDigits_not_digit (by decide) (by decide)]
    rfl
  · have hlong : 10 ^ 4 ≤ (dateOf (dayOf t)).year.toNat := by
      have hlow := (le_year_iff 0 t).mp (Int.not_lt.mp hneg)
      have hhigh := (le_year_iff 10000 t).mpr (Int.not_lt.mp fun hlt => h ⟨hlow, hlt⟩)
      omega
    rw [appendInt, if_neg hneg]
    cases hread : readDigits 4 (padded 4 (dateOf (dayOf t)).year.toNat ++ afterYear
        (dateOf (dayOf t)).month (dateOf (dayOf t)).day (secondOf t / 3600)
        (secondOf t % 3600 / 60) (secondOf t % 60)) with
    | none => rfl
    | some r =>
        have hrest := readDigits_rest hread
        have hlength := lt_padded_length (by decide) hlong
        rw [List.drop_append_of_le_length (Nat.le_of_lt hlength)] at hrest
        -- the fifth character is a digit of the year, and no dash
        cases hdrop : (padded 4 (dateOf (dayOf t)).year.toNat).drop 4 with
        | nil =>
            have hnil := List.drop_eq_nil_iff.mp hdrop
            omega
        | cons c digits =>
            have hc : c.isDigit = true := by
              apply List.all_eq_true.mp (padded_digits 4 (dateOf (dayOf t)).year.toNat)
              apply List.mem_of_mem_drop (i := 4)
              rw [hdrop]
              exact List.mem_cons_self
            rw [hdrop, List.cons_append] at hrest
            rw [read_bind, hrest, skip_digit hc]
            rfl

end Time
end Telemux
