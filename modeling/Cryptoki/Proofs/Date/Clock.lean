import Mathlib.Data.List.Basic
import Cryptoki.Proofs.Attribute.Scalars
import Cryptoki.Snapshot.TokenInfo

/-! The clock of a token: which fields are read as a time, and as which. -/
namespace Cryptoki

variable {field bs : Bytes} {n width start : Nat}

/-- A part of the clock with a zero in the place of a plus sign at its start. -/
def unsigned (bs : Bytes) : Bytes :=
  if bs.head? = some 43 then 48 :: bs.tail else bs

theorem length_unsigned (bs : Bytes) : (unsigned bs).length = bs.length := by
  cases bs with
  | nil => rfl
  | cons b bs =>
    unfold unsigned
    split <;> rfl

theorem unsigned_of_not_mem (h : 43 ∉ bs) : unsigned bs = bs := by
  unfold unsigned
  split
  · next hhead => exact absurd (List.mem_of_mem_head? hhead) h
  · rfl

/-- A plus sign counts as a zero does. -/
theorem numeral?_eq (h : 1 < bs.length) : numeral? bs = digitsValue? (unsigned bs) := by
  cases bs with
  | nil => cases h
  | cons b bs =>
    have hrest : bs ≠ [] := by
      intro hnil
      simp [hnil] at h
    by_cases hb : b = 43
    · have hzero : digitsValue? (48 :: bs) = digitsValue? bs := digitsValue?_zeros 1 bs
      simp [numeral?, unsigned, hb, hrest, hzero]
    · simp [numeral?, unsigned, hb]

theorem numeral?_eq_some_iff (hw : 1 < width) (hlen : bs.length = width) :
    numeral? bs = some n ↔ unsigned bs = digitBytes width n := by
  rw [numeral?_eq (by omega)]
  constructor
  · intro h
    have hlen' : (unsigned bs).length = width := (length_unsigned bs).trans hlen
    exact (digitBytes_of_digitsValue? (by omega) hlen' h).symm
  · intro h
    rw [h, digitsValue?_digitBytes]

theorem plus_ne_digitByte {d : Nat} (h : d < 10) : 43 ≠ digitByte d := by
  intro he
  have hvalue := congrArg UInt8.toNat he
  simp only [digitByte, UInt8.toNat_ofNat'] at hvalue
  have : UInt8.toNat 43 = 43 := rfl
  omega

/-- Two or four digits of a number, as many as it takes. -/
theorem length_digitBytes_two (h : n < 100) : (digitBytes 2 n).length = 2 := by
  rw [digitBytes_two h]
  rfl

theorem length_digitBytes_four (h : n < 10000) : (digitBytes 4 n).length = 4 := by
  rw [digitBytes_four h]
  rfl

theorem plus_not_mem_two (h : n < 100) : 43 ∉ digitBytes 2 n := by
  have hhigh : (43 : UInt8) ≠ digitByte (n / 10) := plus_ne_digitByte (by omega)
  have hlow : (43 : UInt8) ≠ digitByte (n % 10) := plus_ne_digitByte (by omega)
  simp [digitBytes_two h, hhigh, hlow]

theorem plus_not_mem_four (h : n < 10000) : 43 ∉ digitBytes 4 n := by
  have h₁ : (43 : UInt8) ≠ digitByte (n / 1000) := plus_ne_digitByte (by omega)
  have h₂ : (43 : UInt8) ≠ digitByte (n / 100 % 10) := plus_ne_digitByte (by omega)
  have h₃ : (43 : UInt8) ≠ digitByte (n / 10 % 10) := plus_ne_digitByte (by omega)
  have h₄ : (43 : UInt8) ≠ digitByte (n % 10) := plus_ne_digitByte (by omega)
  simp [digitBytes_four h, h₁, h₂, h₃, h₄]

/-- A date is made of its own parts, and of no others. -/
theorem Date.ofCalendar_eq_some_iff {year month day : Nat} {d : Date} :
    (Date.ofCalendar year month day).toOption = some d ↔
      d.year = year ∧ d.month = month ∧ d.day = day := by
  have hmake : Date.make year month day = .ok d ↔
      (Date.ofCalendar year month day).toOption = some d := by
    unfold Date.make
    cases Date.ofCalendar year month day <;> simp [Except.mapError, Except.toOption]
  rw [← hmake]
  constructor
  · exact Date.of_make
  · rintro ⟨hyear, rfl, rfl⟩
    have hparts := d.make_parts (by omega)
    rwa [hyear, Int.toNat_natCast] at hparts

theorem TimeOfDay.ofClock?_eq_some_iff {hour minute second : Nat} {t : TimeOfDay} :
    TimeOfDay.ofClock? hour minute second = some t ↔
      t.hour = hour ∧ t.minute = minute ∧ t.second = second := by
  unfold TimeOfDay.ofClock?
  constructor
  · intro h
    split at h
    · cases h
      exact ⟨rfl, rfl, rfl⟩
    · cases h
  · rintro ⟨rfl, rfl, rfl⟩
    rw [dif_pos ⟨t.hour_lt, t.minute_lt, t.second_lt⟩]

namespace DateTime

/-- Where the parts of the clock begin, and how long they are. -/
def parts : List (Nat × Nat) :=
  [(0, 4), (4, 2), (6, 2), (8, 2), (10, 2), (12, 2)]

def part (field : Bytes) (p : Nat × Nat) : Bytes := (field.drop p.1).take p.2

/-- The first fourteen bytes, with zeros for the plus signs that begin a part. -/
def withoutSigns (field : Bytes) : Bytes :=
  (parts.map fun p => unsigned (part field p)).flatten

/-- Four digits of the year, and two each of the month, the day, the hour and so on. -/
def pieces (t : DateTime) : List Bytes :=
  [digitBytes 4 t.date.year.toNat, digitBytes 2 t.date.month, digitBytes 2 t.date.day,
    digitBytes 2 t.time.hour, digitBytes 2 t.time.minute, digitBytes 2 t.time.second]

/-- The fourteen digits of a date and a time, one after the other. -/
def digits (t : DateTime) : Bytes := t.pieces.flatten

/-- The bytes are the digits of the date and the time, whose year is not negative. -/
def WrittenAs (t : DateTime) (bs : Bytes) : Prop :=
  0 ≤ t.date.year ∧ bs = t.digits

theorem flatten_parts (field : Bytes) : (parts.map (part field)).flatten = field.take 14 := by
  have hsecond : field.take 14 = field.take 12 ++ (field.drop 12).take 2 :=
    List.take_add (i := 12) (j := 2)
  have hminute : field.take 12 = field.take 10 ++ (field.drop 10).take 2 :=
    List.take_add (i := 10) (j := 2)
  have hhour : field.take 10 = field.take 8 ++ (field.drop 8).take 2 :=
    List.take_add (i := 8) (j := 2)
  have hday : field.take 8 = field.take 6 ++ (field.drop 6).take 2 :=
    List.take_add (i := 6) (j := 2)
  have hmonth : field.take 6 = field.take 4 ++ (field.drop 4).take 2 :=
    List.take_add (i := 4) (j := 2)
  simp [parts, part, hsecond, hminute, hhour, hday, hmonth]

theorem withoutSigns_of_not_mem (h : 43 ∉ field.take 14) : withoutSigns field = field.take 14 := by
  rw [← flatten_parts] at h ⊢
  apply congrArg List.flatten
  apply List.map_congr_left
  intro p hp
  apply unsigned_of_not_mem
  intro hmem
  exact h (List.mem_flatten.mpr ⟨_, List.mem_map_of_mem hp, hmem⟩)

theorem length_withoutSigns (field : Bytes) :
    (withoutSigns field).length = min 14 field.length := by
  simp only [withoutSigns, parts, part, List.map_cons, List.map_nil, List.flatten_cons,
    List.flatten_nil, List.length_append, length_unsigned, List.length_take, List.length_drop,
    List.length_nil]
  omega

/-- The parts of a date and a time, in bounds that give each of them its digits. -/
theorem parts_lt (t : DateTime) : t.date.year.toNat < 10000 ∧ t.date.month < 100 ∧
    t.date.day < 100 ∧ t.time.hour < 100 ∧ t.time.minute < 100 ∧ t.time.second < 100 := by
  have hyear := t.date.year_range
  have hmonth := t.date.month_range
  have hday := t.date.day_range
  have hdays := daysInMonth_le t.date.year t.date.month
  have hhour := t.time.hour_lt
  have hminute := t.time.minute_lt
  have hsecond := t.time.second_lt
  omega

theorem length_pieces (t : DateTime) : t.pieces.map List.length = [4, 2, 2, 2, 2, 2] := by
  obtain ⟨hyear, hmonth, hday, hhour, hminute, hsecond⟩ := t.parts_lt
  simp [pieces, length_digitBytes_four, length_digitBytes_two, *]

theorem length_digits (t : DateTime) : t.digits.length = 14 := by
  rw [digits, List.length_flatten, length_pieces]
  rfl

theorem plus_not_mem_digits (t : DateTime) : 43 ∉ t.digits := by
  obtain ⟨hyear, hmonth, hday, hhour, hminute, hsecond⟩ := t.parts_lt
  simp [digits, pieces, plus_not_mem_four, plus_not_mem_two, *]

/-- A clock is read part by part. -/
theorem ofClock?_eq_some_iff {t : DateTime} (h : 14 ≤ field.length) :
    ofClock? field = some t ↔ 0 ≤ t.date.year ∧
      numeral? (part field (0, 4)) = some t.date.year.toNat ∧
      numeral? (part field (4, 2)) = some t.date.month ∧
      numeral? (part field (6, 2)) = some t.date.day ∧
      numeral? (part field (8, 2)) = some t.time.hour ∧
      numeral? (part field (10, 2)) = some t.time.minute ∧
      numeral? (part field (12, 2)) = some t.time.second := by
  obtain ⟨date, time⟩ := t
  rw [ofClock?, if_pos h]
  simp only [Option.bind_eq_bind, Option.bind_eq_some_iff, Date.ofCalendar_eq_some_iff,
    TimeOfDay.ofClock?_eq_some_iff, part]
  constructor
  · rintro ⟨year, hyear, month, hmonth, day, hday, d, ⟨hd, rfl, rfl⟩, hour, hhour, minute, hminute,
      second, hsecond, c, ⟨rfl, rfl, rfl⟩, hresult⟩
    cases hresult
    refine ⟨by omega, ?_, hmonth, hday, hhour, hminute, hsecond⟩
    rw [hd, Int.toNat_natCast]
    exact hyear
  · rintro ⟨hnonneg, hyear, hmonth, hday, hhour, hminute, hsecond⟩
    exact ⟨_, hyear, _, hmonth, _, hday, date, ⟨(Int.toNat_of_nonneg hnonneg).symm, rfl, rfl⟩,
      _, hhour, _, hminute, _, hsecond, time, ⟨rfl, rfl, rfl⟩, rfl⟩

/-- What is read of a clock are the digits that it has with zeros for plus signs. -/
theorem ofClock?_iff_writtenAs {t : DateTime} :
    ofClock? field = some t ↔ t.WrittenAs (withoutSigns field) := by
  by_cases hlen : 14 ≤ field.length
  · obtain ⟨hy, hmo, hd, hh, hmi, hs⟩ := t.parts_lt
    have hwidth : ∀ start size, start + size ≤ 14 → (part field (start, size)).length = size := by
      intro start size hle
      simp only [part, List.length_take, List.length_drop]
      omega
    rw [ofClock?_eq_some_iff hlen, numeral?_eq_some_iff (by decide) (hwidth 0 4 (by decide)),
      numeral?_eq_some_iff (by decide) (hwidth 4 2 (by decide)),
      numeral?_eq_some_iff (by decide) (hwidth 6 2 (by decide)),
      numeral?_eq_some_iff (by decide) (hwidth 8 2 (by decide)),
      numeral?_eq_some_iff (by decide) (hwidth 10 2 (by decide)),
      numeral?_eq_some_iff (by decide) (hwidth 12 2 (by decide))]
    have hlengths : (parts.map fun p => unsigned (part field p)).map List.length =
        t.pieces.map List.length := by
      rw [length_pieces, List.map_map]
      simp only [parts, List.map_cons, List.map_nil, Function.comp_apply, length_unsigned]
      rw [hwidth 0 4 (by decide), hwidth 4 2 (by decide), hwidth 6 2 (by decide),
        hwidth 8 2 (by decide), hwidth 10 2 (by decide), hwidth 12 2 (by decide)]
    have hpieces : withoutSigns field = t.digits ↔
        (parts.map fun p => unsigned (part field p)) = t.pieces := by
      rw [List.eq_iff_flatten_eq]
      exact ⟨fun h => ⟨h, hlengths⟩, fun h => h.1⟩
    rw [WrittenAs, hpieces]
    simp [parts, pieces]
  · have hshort : ofClock? field = none := if_neg hlen
    rw [hshort]
    constructor
    · intro h
      cases h
    · rintro ⟨-, h⟩
      have hlength := congrArg List.length h
      rw [length_withoutSigns, length_digits] at hlength
      omega

/-- Digits stay what they are, with anything behind them. -/
theorem writtenAs_digits_append {t : DateTime} (h : 0 ≤ t.date.year) (rest : Bytes) :
    t.WrittenAs (withoutSigns (t.digits ++ rest)) := by
  have hfirst : (t.digits ++ rest).take 14 = t.digits := List.take_left' t.length_digits
  refine ⟨h, ?_⟩
  rw [withoutSigns_of_not_mem, hfirst]
  rw [hfirst]
  exact t.plus_not_mem_digits

end DateTime

namespace TokenInfo

/-- The clock is read where the token says that it has one, and its first fourteen bytes are the
digits of a date and a time; except that a plus sign is taken for a zero where it begins the year,
the month, the day, the hour, the minute or the second. So without plus signs, what is read is what
those bytes spell, digit by digit, and nothing else is read; and each date and time of the years from
zero to 9999 is read back from its digits, whatever follows them. -/
theorem utcTime_exact (n : NativeTokenInfo) :
    (∀ t, (ofNative n).utcTime = some t ↔
      hasFlag n.flags TokenFlag.clockOnToken.mask = true ∧
        t.WrittenAs (DateTime.withoutSigns n.utcTime)) ∧
    (43 ∉ n.utcTime.take 14 → ∀ t, (ofNative n).utcTime = some t ↔
      hasFlag n.flags TokenFlag.clockOnToken.mask = true ∧ t.WrittenAs (n.utcTime.take 14)) ∧
    (43 ∈ n.utcTime.take 14 → ∀ t : DateTime, ¬ t.WrittenAs (n.utcTime.take 14)) ∧
    (hasFlag n.flags TokenFlag.clockOnToken.mask = true → ∀ t : DateTime, 0 ≤ t.date.year →
      ∀ rest, (ofNative { n with utcTime := t.digits ++ rest }).utcTime = some t) := by
  have hread : ∀ (m : NativeTokenInfo) (t : DateTime), (ofNative m).utcTime = some t ↔
      hasFlag m.flags TokenFlag.clockOnToken.mask = true ∧
        t.WrittenAs (DateTime.withoutSigns m.utcTime) := by
    intro m t
    rw [ofNative, ← DateTime.ofClock?_iff_writtenAs]
    cases hasFlag m.flags TokenFlag.clockOnToken.mask <;> simp
  refine ⟨hread n, ?_, ?_, ?_⟩
  · intro hplus t
    rw [hread, DateTime.withoutSigns_of_not_mem hplus]
  · rintro hplus t ⟨-, h⟩
    rw [h] at hplus
    exact t.plus_not_mem_digits hplus
  · intro hflag t hyear rest
    exact (hread _ t).mpr ⟨hflag, DateTime.writtenAs_digits_append hyear rest⟩

/-- A token whose clock says `20240430+95959`. -/
def signedClock : NativeTokenInfo where
  label := []
  manufacturer := []
  model := []
  serial := []
  flags := 0x40
  maxSessions := 0
  sessions := 0
  maxRwSessions := 0
  rwSessions := 0
  maxPinLength := 0
  minPinLength := 0
  totalPublicMemory := 0
  freePublicMemory := 0
  totalPrivateMemory := 0
  freePrivateMemory := 0
  hardware := .zero
  firmware := .zero
  utcTime := [50, 48, 50, 52, 48, 52, 51, 48, 43, 57, 53, 57, 53, 57, 48, 48]

/-- The last second before ten. -/
def beforeTen : DateTime where
  date := ⟨2024, 4, 30, by decide, by decide, by decide⟩
  time := ⟨9, 59, 59, by decide, by decide, by decide⟩

theorem utcTime_exact_sign : (ofNative signedClock).utcTime = some beforeTen ∧
    ¬ beforeTen.WrittenAs (signedClock.utcTime.take 14) ∧
    (ofNative { signedClock with utcTime := beforeTen.digits }).utcTime = some beforeTen := by
  obtain ⟨hread, -, hplus, hback⟩ := utcTime_exact signedClock
  refine ⟨(hread _).mpr ⟨by decide, by decide, by decide +kernel⟩, hplus (by decide) _, ?_⟩
  simpa using hback (by decide) beforeTen (by decide) []

/-- A plus sign is not a digit, and still a time is read. -/
theorem utcTime_of_sign : (ofNative signedClock).utcTime = some beforeTen ∧
    ¬ (signedClock.utcTime.take 14).all (fun b => (digitValue? b).isSome) ∧
    ¬ ∃ t : DateTime, t.WrittenAs (signedClock.utcTime.take 14) := by
  refine ⟨by decide +kernel, by decide, ?_⟩
  rintro ⟨t, -, h⟩
  have hplus : (43 : UInt8) ∈ signedClock.utcTime.take 14 := by decide
  rw [h] at hplus
  exact t.plus_not_mem_digits hplus

end TokenInfo

end Cryptoki
