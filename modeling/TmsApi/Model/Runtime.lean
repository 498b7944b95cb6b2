import TmsApi.Model.Prisma
import Mathlib.Algebra.Order.Field.Rat

/-!
# What the service takes from its surroundings

`Libs` holds the functions of packages and of the database that are not part
of the repository: the collation key of string columns, the e-mail pattern of
the schema library, password hashing and token signing.  `Host` is what the
server process supplies to one request: its time zone, the current instant and
the salt of the hashes it computes.

The second half is `utils/dateHelpers.ts` over a zone, and the conversions of
dates and numbers to text.
-/

namespace TmsApi

open TmsApi.Core

/-- The payload of the tokens. -/
structure JwtPayload where
  userId : Nat
  orgId : Nat
  role : UserRole
deriving DecidableEq

/-- The secret a token is signed with. -/
inductive TokenKind where
  | access
  | refresh
deriving DecidableEq

/-- Functions of third-party packages and of the database server. -/
structure Libs where
  /-- The comparison key of `utf8mb4_unicode_ci`. -/
  collate : String → String
  /-- `z.string().email()`. -/
  isEmail : String → Bool
  /-- `bcrypt.hash` with its random salt. -/
  bcryptHash : String → Nat → String
  bcryptCompare : String → String → Bool
  /-- `jwt.sign` at an instant. -/
  jwtSign : TokenKind → JwtPayload → Instant → String
  /-- `jwt.verify` at an instant. -/
  jwtVerify : TokenKind → String → Instant → Option JwtPayload

/-- The server process during one request. -/
structure Host where
  zone : Zone
  now : Instant
  salt : Nat

/-! ## `utils/dateHelpers.ts` -/

/-- `date.getDay()`. -/
def getDay (zone : Zone) (date : Instant) : Int :=
  weekday (zone.dayOf date)

/-- `d.setDate(d.getDate() + days)` for a local midnight `d`. -/
def addDays (zone : Zone) (d : Instant) (days : Int) : Instant :=
  zone.midnight (zone.dayOf d + days)

def getWeekStart (zone : Zone) (date : Instant)
    (weekStart : WorkWeekStart) : Instant :=
  let d := zone.midnight (zone.dayOf date)
  let day := getDay zone d
  match weekStart with
  | .monday =>
      let diff := if day = 0 then -6 else 1 - day
      addDays zone d diff
  | .sunday => addDays zone d (-day)

/-- The last millisecond of the sixth day after `weekStart`. -/
def getWeekEnd (zone : Zone) (weekStart : Instant) : Instant :=
  zone.midnight (zone.dayOf weekStart + 6 + 1) - 1

/-- Before today's midnight. -/
def isInPast (host : Host) (date : Instant) : Prop :=
  date < host.zone.midnight (host.zone.dayOf host.now)

instance (host : Host) (date : Instant) : Decidable (isInPast host date) :=
  inferInstanceAs (Decidable (_ < _))

/-- The weekday a week begins on. -/
def WorkWeekStart.weekday : WorkWeekStart → Int
  | .monday => 1
  | .sunday => 0

/-- Both branches of `getWeekStart` go back to the last start day. -/
theorem getWeekStart_eq (zone : Zone) (date : Instant)
    (weekStart : WorkWeekStart) :
    getWeekStart zone date weekStart =
      zone.midnight (weekFloor weekStart.weekday (zone.dayOf date)) := by
  cases weekStart with
  | monday =>
      simp only [getWeekStart, addDays, getDay, Zone.dayOf_midnight,
        Zone.midnight_inj, WorkWeekStart.weekday, weekFloor]
      split <;> simp only [weekday] at * <;> omega
  | sunday =>
      simp only [getWeekStart, addDays, getDay, Zone.dayOf_midnight,
        Zone.midnight_inj, WorkWeekStart.weekday, weekFloor, weekday]
      omega

/-! ## Text -/

/-- The last `width` decimal digits of `n`. -/
def digits : Nat → Nat → List Char
  | 0, _ => []
  | width + 1, n => digits width (n / 10) ++ [Nat.digitChar (n % 10)]

theorem length_digits (width n : Nat) : (digits width n).length = width := by
  induction width generalizing n with
  | zero => rfl
  | succ width ih => simp [digits, ih]

theorem digitChar_inj {m n : Nat} (left : m < 10) (right : n < 10) :
    Nat.digitChar m = Nat.digitChar n ↔ m = n := by
  constructor
  · intro same
    have value := congrArg Char.toNat same
    rw [Nat.toNat_digitChar_of_lt_ten left,
      Nat.toNat_digitChar_of_lt_ten right] at value
    omega
  · rintro rfl
    rfl

/-- Numbers that fit are told apart by their digits. -/
theorem digits_inj {width m n : Nat} (left : m < 10 ^ width)
    (right : n < 10 ^ width) : digits width m = digits width n ↔ m = n := by
  constructor
  · intro same
    induction width generalizing m n with
    | zero => omega
    | succ width ih =>
        rw [pow_succ] at left right
        obtain ⟨front, last⟩ := List.append_inj' same rfl
        have high := ih (by omega) (by omega) front
        have low := (digitChar_inj (Nat.mod_lt _ (by decide))
          (Nat.mod_lt _ (by decide))).mp (List.cons.inj last).1
        omega
  · rintro rfl
    rfl

/-- The year of an ISO string: four digits, or a sign and six. -/
def isoYear (year : Int) : List Char :=
  if 0 ≤ year ∧ year ≤ 9999 then digits 4 year.toNat
  else (if year < 0 then '-' else '+') :: digits 6 year.natAbs

/-- `date.toISOString().split('T')[0]`. -/
def toDateString (date : Instant) : String :=
  let (year, month, day) := civilFromDays (date / dayMs)
  String.ofList
    (isoYear year ++ '-' :: digits 2 month.toNat ++ '-' :: digits 2 day.toNat)

theorem length_toDateString_le (date : Instant) :
    (toDateString date).length ≤ 13 := by
  simp only [toDateString, isoYear, String.length_ofList]
  split <;> simp [length_digits]

/-- The decimal digits of a fraction below one, without trailing zeros. -/
def fractionDigits : Nat → ℚ → List Char
  | 0, _ => []
  | fuel + 1, q =>
      if q = 0 then []
      else
        let digit := (q * 10).floor
        Nat.digitChar digit.toNat :: fractionDigits fuel (q * 10 - digit)

/-- A non-negative number in a template literal. -/
def numberText (q : ℚ) : String :=
  let fraction := fractionDigits 17 (q - q.floor)
  toString q.floor ++
    if fraction = [] then "" else "." ++ String.ofList fraction

example : toDateString 1704067200000 = "2024-01-01" := by decide +kernel

example : numberText (15 / 2) = "7.5" := by decide +kernel

/-- `s.trim()` is empty. -/
def isBlank (s : String) : Bool :=
  s.toList.all fun c =>
    c.val ∈ [0x9, 0xA, 0xB, 0xC, 0xD, 0x20, 0xA0, 0x1680, 0x2028, 0x2029,
      0x202F, 0x205F, 0x3000, 0xFEFF] ||
      (0x2000 ≤ c.val && c.val ≤ 0x200A)

/-- `xs.reduce((sum, x) => sum + f(x), 0)`. -/
def sumBy {α : Type} (f : α → ℚ) (xs : List α) : ℚ :=
  xs.foldl (fun sum x => sum + f x) 0

theorem sumBy_eq {α : Type} (f : α → ℚ) (xs : List α) :
    sumBy f xs = (xs.map f).sum := by
  rw [List.sum_eq_foldl, List.foldl_map]
  rfl

theorem sumBy_append {α : Type} {f : α → ℚ} (left right : List α) :
    sumBy f (left ++ right) = sumBy f left + sumBy f right := by
  simp only [sumBy_eq, List.map_append, List.sum_append]

end TmsApi
