import Mathlib.Tactic.Ring
import Kaede.CivilTime

/-!
# Texts of times

`isoformat` and `fromisoformat` of Python's `datetime`, for times that are
aware of their zone. Times are kept in UTC, and `isoformat` writes them with
the offset of zero. `fromisoformat` reads that form back
(`fromisoformat_isoformat`); the other forms it takes are left to a
parameter, which gives the time in UTC they denote, or none for a time
without a zone.
-/

namespace Kaede

namespace CivilTime

/-- The last digits of a number, as many as asked for. -/
def pad : Nat → Nat → List Char
  | 0, _ => []
  | width + 1, n => Nat.digitChar (n / 10 ^ width % 10) :: pad width n

def fraction (microsecond : Nat) : List Char :=
  if microsecond = 0 then [] else '.' :: pad 6 microsecond

def isoChars (t : CivilTime) : List Char :=
  pad 4 t.year ++ '-' :: (pad 2 t.month ++ '-' :: (pad 2 t.day ++ 'T' ::
    (pad 2 (t.time / 3600000000) ++ ':' :: (pad 2 (t.time / 60000000 % 60) ++ ':' ::
      (pad 2 (t.time / 1000000 % 60) ++ (fraction (t.time % 1000000) ++
        ['+', '0', '0', ':', '0', '0']))))))

def isoformat (t : CivilTime) : String := String.ofList t.isoChars

/-! ## Reading -/

/-- A number of so many digits. -/
def readDigits : Nat → Nat → List Char → Option (Nat × List Char)
  | 0, n, text => some (n, text)
  | _ + 1, _, [] => none
  | width + 1, n, c :: text =>
      if c.isDigit then readDigits width (n * 10 + (c.toNat - '0'.toNat)) text else none

def expect (c : Char) : List Char → Option (List Char)
  | [] => none
  | d :: text => if d = c then some text else none

def readFraction : List Char → Option (Nat × List Char)
  | '.' :: text => readDigits 6 0 text
  | text => some (0, text)

def ofFields? (year month day time : Nat) : Option CivilTime :=
  if h : (1 ≤ year ∧ year ≤ 9999) ∧ (1 ≤ month ∧ month ≤ 12) ∧
      (1 ≤ day ∧ day ≤ daysInMonth year month) ∧ time < microsecondsPerDay then
    some ⟨year, month, day, time, h.1, h.2.1, h.2.2.1, h.2.2.2⟩
  else none

/-- A time in the form that `isoformat` writes. -/
def readUtc (text : List Char) : Option CivilTime := do
  let (year, text) ← readDigits 4 0 text
  let text ← expect '-' text
  let (month, text) ← readDigits 2 0 text
  let text ← expect '-' text
  let (day, text) ← readDigits 2 0 text
  let text ← expect 'T' text
  let (hour, text) ← readDigits 2 0 text
  let text ← expect ':' text
  let (minute, text) ← readDigits 2 0 text
  let text ← expect ':' text
  let (second, text) ← readDigits 2 0 text
  let (microsecond, text) ← readFraction text
  if text = ['+', '0', '0', ':', '0', '0'] ∧ minute < 60 ∧ second < 60 then
    ofFields? year month day (((hour * 60 + minute) * 60 + second) * 1000000 + microsecond)
  else none

def fromisoformat (other : String → Option (Option CivilTime)) (text : String) :
    Option (Option CivilTime) :=
  match readUtc text.toList with
  | some t => some (some t)
  | none => other text

/-! ## The round trip -/

theorem digitChar_value : ∀ n < 10, (Nat.digitChar n).isDigit ∧
    (Nat.digitChar n).toNat - '0'.toNat = n := by decide

theorem readDigits_pad (width n m : Nat) (rest : List Char) :
    readDigits width m (pad width n ++ rest) = some (m * 10 ^ width + n % 10 ^ width, rest) := by
  induction width generalizing m with
  | zero => simp [pad, readDigits, Nat.mod_one]
  | succ width ih =>
    obtain ⟨hdigit, hvalue⟩ := digitChar_value (n / 10 ^ width % 10) (Nat.mod_lt _ (by decide))
    rw [pad, List.cons_append, readDigits, if_pos hdigit, hvalue, ih, Nat.mod_pow_succ]
    congr 2
    ring

theorem expect_cons (c : Char) (text : List Char) : expect c (c :: text) = some text := if_pos rfl

theorem readFraction_fraction {n : Nat} (h : n < 1000000) (rest : List Char) :
    readFraction (fraction n ++ '+' :: rest) = some (n, '+' :: rest) := by
  unfold fraction
  by_cases hzero : n = 0
  · rw [if_pos hzero, hzero]
    rfl
  · rw [if_neg hzero, List.cons_append]
    have hread := readDigits_pad 6 n 0 ('+' :: rest)
    rw [Nat.mod_eq_of_lt (by omega), Nat.zero_mul, Nat.zero_add] at hread
    exact hread

theorem daysInMonth_le (year month : Nat) : daysInMonth year month ≤ 31 := by
  unfold daysInMonth
  split
  all_goals try omega
  split <;> omega

theorem ofFields?_self (t : CivilTime) : ofFields? t.year t.month t.day t.time = some t := by
  rw [ofFields?, dif_pos ⟨t.year_ok, t.month_ok, t.day_ok, t.time_ok⟩]

theorem readUtc_isoChars (t : CivilTime) : readUtc t.isoChars = some t := by
  have htime : t.time < 86400000000 := t.time_ok
  have hyear := t.year_ok
  have hmonth := t.month_ok
  have hday := t.day_ok
  have hdays := daysInMonth_le t.year t.month
  have hread (width n : Nat) (rest : List Char) (h : n < 10 ^ width) :
      readDigits width 0 (pad width n ++ rest) = some (n, rest) := by
    rw [readDigits_pad, Nat.mod_eq_of_lt h, Nat.zero_mul, Nat.zero_add]
  have hsum : ((t.time / 3600000000 * 60 + t.time / 60000000 % 60) * 60 +
      t.time / 1000000 % 60) * 1000000 + t.time % 1000000 = t.time := by omega
  simp only [readUtc, isoChars, Option.bind_eq_bind, hread 4 t.year _ (by omega), expect_cons,
    hread 2 t.month _ (by omega), hread 2 t.day _ (by omega),
    hread 2 (t.time / 3600000000) _ (by omega), hread 2 (t.time / 60000000 % 60) _ (by omega),
    hread 2 (t.time / 1000000 % 60) _ (by omega),
    readFraction_fraction (show t.time % 1000000 < 1000000 by omega), Option.bind_some]
  rw [if_pos ⟨trivial, by omega, by omega⟩, hsum, ofFields?_self]

theorem fromisoformat_isoformat (other : String → Option (Option CivilTime)) (t : CivilTime) :
    fromisoformat other t.isoformat = some (some t) := by
  rw [fromisoformat, isoformat, String.toList_ofList, readUtc_isoChars]

theorem isoformat_injective {t u : CivilTime} (h : t.isoformat = u.isoformat) : t = u := by
  have hread := fromisoformat_isoformat (fun _ => none) t
  rw [h, fromisoformat_isoformat] at hread
  exact (Option.some.inj (Option.some.inj hread)).symm

end CivilTime

end Kaede
