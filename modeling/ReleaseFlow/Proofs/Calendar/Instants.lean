import ReleaseFlow.Proofs.Calendar.Days
import ReleaseFlow.Proofs.Calendar.Written

/-!
# Written instants

* `Stamp`: whole seconds in UTC, by date and time of day;
* `Stamp.text_injective`: **different stamps have different texts**;
* `Instant.stamp`: an instant rounded down to the second, of which it shows the text;
* `Instant.Denotes`, `Instant.denotes_text_iff`: **the text of an instant denotes its whole
  seconds**, and nothing else.
-/

namespace ReleaseFlow

/-- A time of a day in UTC, to the second. -/
structure Stamp where
  year : ℤ
  month : ℕ
  day : ℕ
  hour : ℕ
  minute : ℕ
  second : ℕ
  isCivil : IsCivil year month day
  isTime : hour < 24 ∧ minute < 60 ∧ second < 60

namespace Stamp

/-- A stamp in the form of RFC 3339, such as `2024-05-15T12:00:00Z`. -/
def text (s : Stamp) : String :=
  yearText s.year ++ "-" ++ Text.padded 2 s.month ++ "-" ++ Text.padded 2 s.day ++ "T" ++
    Text.padded 2 s.hour ++ ":" ++ Text.padded 2 s.minute ++ ":" ++ Text.padded 2 s.second ++ "Z"

/-- The seconds from the start of 1970. -/
def seconds (s : Stamp) : ℤ :=
  86400 * dayNumber s.year s.month s.day + 3600 * s.hour + 60 * s.minute + s.second

/-- Two digits and what follows. -/
def pair (n : ℕ) (rest : List Char) : List Char :=
  (Text.padded 2 n).toList ++ rest

theorem length_pair {n : ℕ} (h : n < 100) (rest : List Char) :
    (pair n rest).length = 2 + rest.length := by
  rw [pair, List.length_append, Text.length_padded (by decide) h]

theorem pair_inj {n m : ℕ} (hn : n < 100) (hm : m < 100) {rest rest' : List Char}
    (h : pair n rest = pair m rest') : n = m ∧ rest = rest' := by
  obtain ⟨hdigits, hrest⟩ := List.append_inj h
    ((Text.length_padded (by decide) hn).trans (Text.length_padded (by decide) hm).symm)
  exact ⟨Text.padded_injective 2 (String.toList_inj.1 hdigits), hrest⟩

/-- The text behind the year. -/
def tail (s : Stamp) : List Char :=
  '-' :: pair s.month ('-' :: pair s.day ('T' :: pair s.hour
    (':' :: pair s.minute (':' :: pair s.second ['Z']))))

theorem toList_text (s : Stamp) : s.text.toList = (yearText s.year).toList ++ s.tail := by
  have hdash : "-".toList = ['-'] := rfl
  have hcolon : ":".toList = [':'] := rfl
  have hT : "T".toList = ['T'] := rfl
  have hZ : "Z".toList = ['Z'] := rfl
  simp only [text, tail, pair, String.toList_append, hdash, hcolon, hT, hZ, List.append_assoc,
    List.cons_append, List.nil_append]

variable (s : Stamp)

theorem day_lt : s.day < 100 :=
  Nat.lt_of_le_of_lt (Nat.le_trans s.isCivil.isDay.2 (daysInMonth_le s.year s.month)) (by decide)

theorem month_lt : s.month < 100 := by
  have hmonth := s.isCivil.isMonth
  omega

theorem time_lt : s.hour < 100 ∧ s.minute < 100 ∧ s.second < 100 := by
  have htime := s.isTime
  omega

theorem length_tail : s.tail.length = 16 := by
  obtain ⟨hhour, hminute, hsecond⟩ := s.time_lt
  simp only [tail, List.length_cons, length_pair s.month_lt, length_pair s.day_lt,
    length_pair hhour, length_pair hminute, length_pair hsecond, List.length_nil]

/-- **Different stamps have different texts.** -/
theorem text_injective : Function.Injective text := by
  intro s t h
  have hchars := congrArg String.toList h
  rw [toList_text, toList_text] at hchars
  obtain ⟨hyear, htail⟩ := List.append_inj' hchars (s.length_tail.trans t.length_tail.symm)
  obtain ⟨hmonth, hrest⟩ := pair_inj s.month_lt t.month_lt (List.cons.inj htail).2
  obtain ⟨hday, hrest⟩ := pair_inj s.day_lt t.day_lt (List.cons.inj hrest).2
  obtain ⟨hhour, hrest⟩ := pair_inj s.time_lt.1 t.time_lt.1 (List.cons.inj hrest).2
  obtain ⟨hminute, hrest⟩ := pair_inj s.time_lt.2.1 t.time_lt.2.1 (List.cons.inj hrest).2
  obtain ⟨hsecond, -⟩ := pair_inj s.time_lt.2.2 t.time_lt.2.2 (List.cons.inj hrest).2
  have hyear' := yearText_injective (String.toList_inj.1 hyear)
  cases s
  cases t
  simp only at hyear' hmonth hday hhour hminute hsecond
  subst hyear' hmonth hday hhour hminute hsecond
  rfl

end Stamp

namespace Instant

/-- The instant rounded down to the second. -/
def stamp (t : Instant) : Stamp where
  year := (civilOfDays (t.seconds.fdiv 86400)).1
  month := (civilOfDays (t.seconds.fdiv 86400)).2.1
  day := (civilOfDays (t.seconds.fdiv 86400)).2.2
  hour := (t.seconds.fmod 86400).toNat / 3600
  minute := (t.seconds.fmod 86400).toNat / 60 % 60
  second := (t.seconds.fmod 86400).toNat % 60
  isCivil := (civilOfDays_isCivil _).1
  isTime := by
    have hlt := Int.fmod_lt_of_pos t.seconds (by decide : (0 : ℤ) < 86400)
    omega

theorem stamp_seconds (t : Instant) : t.stamp.seconds = t.seconds := by
  have hday : dayNumber t.stamp.year t.stamp.month t.stamp.day = t.seconds.fdiv 86400 :=
    (civilOfDays_isCivil _).2
  have hsplit := Int.mul_fdiv_add_fmod t.seconds 86400
  obtain ⟨second, hsecond⟩ := Int.eq_ofNat_of_zero_le
    (Int.fmod_nonneg_of_pos t.seconds (by decide : (0 : ℤ) < 86400))
  rw [Stamp.seconds, hday]
  simp only [stamp, hsecond, Int.toNat_natCast]
  omega

/-- An instant shows the text of its stamp, unless it lies in a leap second. -/
theorem stamp_text (t : Instant) (h : t.nanos < 1000000000) : t.stamp.text = t.text := by
  rw [text, if_neg (by omega)]
  rfl

/-- The nanoseconds from the start of 1970. -/
def nanoseconds (t : Instant) : ℤ :=
  t.seconds * 1000000000 + t.nanos

/-- The text denotes the instant that lies some seconds after the start of 1970. -/
def Denotes (text : String) (seconds : ℤ) : Prop :=
  ∃ s : Stamp, s.text = text ∧ s.seconds = seconds

/-- **The text of an instant denotes its whole seconds**, and nothing else. -/
theorem denotes_text_iff {t : Instant} (h : t.nanos < 1000000000) (seconds : ℤ) :
    Denotes t.text seconds ↔ seconds = t.seconds := by
  constructor
  · rintro ⟨s, htext, rfl⟩
    rw [Stamp.text_injective (htext.trans (t.stamp_text h).symm), t.stamp_seconds]
  · rintro rfl
    exact ⟨t.stamp, t.stamp_text h, t.stamp_seconds⟩

end Instant

end ReleaseFlow
