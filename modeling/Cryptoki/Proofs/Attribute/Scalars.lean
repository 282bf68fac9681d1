import Cryptoki.Attribute.Codec
import Cryptoki.Proofs.Date.Digits

/-! The native forms of words and dates: each is read back, and nothing else is read. -/
namespace Cryptoki

theorem AttributeType.ofCode?_code (t : AttributeType) : ofCode? t.code = some t := by
  cases t <;> decide

theorem AttributeType.code_of_ofCode? {w : Word} {t : AttributeType} (h : ofCode? w = some t) :
    t.code = w := by
  simpa using List.find?_some h

theorem littleEndian_ofLittleEndian (bs : Bytes) :
    littleEndian bs.length (ofLittleEndian bs) = bs := by
  induction bs with
  | nil => rfl
  | cons b bs ih =>
    have hb := b.toNat_lt
    have hlow : UInt8.ofNat ((b.toNat + 256 * ofLittleEndian bs) % 256) = b := by
      apply UInt8.toNat_inj.mp
      simp only [UInt8.toNat_ofNat']
      omega
    have hrest : (b.toNat + 256 * ofLittleEndian bs) / 256 = ofLittleEndian bs := by omega
    rw [List.length_cons, ofLittleEndian, littleEndian, hlow, hrest, ih]

theorem Word.length_toBytes (w : Word) : w.toBytes.length = 8 := length_littleEndian 8 _

/-- A word has the lowest eight bytes of the number it is made of. -/
theorem Word.toBytes_ofNat (v : Nat) : Word.toBytes (UInt64.ofNat v) = littleEndian 8 v := by
  have hv : (UInt64.ofNat v).toNat = v % UInt64.size := rfl
  rw [Word.toBytes, hv]
  simp only [littleEndian, UInt64.size, List.cons.injEq, and_true]
  refine ⟨?_, ?_, ?_, ?_, ?_, ?_, ?_, ?_⟩ <;> exact congrArg UInt8.ofNat (by omega)

theorem Word.toBytes_ofLittleEndian {bs : Bytes} (h : bs.length = 8) :
    Word.toBytes (UInt64.ofNat (ofLittleEndian bs)) = bs := by
  rw [Word.toBytes_ofNat, ← h, littleEndian_ofLittleEndian]

theorem Word.toBytes_of_ofBytes? {bs : Bytes} {w : Word} (h : Word.ofBytes? bs = some w) :
    w.toBytes = bs := by
  unfold Word.ofBytes? at h
  split at h
  · obtain rfl := Option.some.inj h
    exact Word.toBytes_ofLittleEndian ‹_›
  · cases h

theorem decodeWords_encodeWords (ws : List Word) : decodeWords (encodeWords ws) = ws := by
  induction ws with
  | nil => rfl
  | cons w ws ih =>
    have hfirst : UInt64.ofNat (ofLittleEndian (Word.toBytes w)) = w := by
      rw [Word.toBytes, ofLittleEndian_littleEndian, Nat.mod_eq_of_lt w.toNat_lt_size,
        UInt64.ofNat_toNat]
    calc decodeWords (encodeWords (w :: ws))
        = UInt64.ofNat (ofLittleEndian (Word.toBytes w)) :: decodeWords (encodeWords ws) := rfl
      _ = w :: ws := by rw [hfirst, ih]

theorem length_encodeWords (ws : List Word) : (encodeWords ws).length = 8 * ws.length := by
  induction ws with
  | nil => rfl
  | cons w ws ih =>
    rw [encodeWords, List.flatMap_cons, List.length_append, Word.length_toBytes, ← encodeWords, ih,
      List.length_cons]
    omega

theorem encodeWords_decodeWords {bs : Bytes} (h : bs.length % 8 = 0) :
    encodeWords (decodeWords bs) = bs := by
  induction bs using decodeWords.induct with
  | case1 a b c d e f g i rest ih =>
    have hrest : rest.length % 8 = 0 := by
      simp only [List.length_cons] at h
      omega
    rw [decodeWords, encodeWords, List.flatMap_cons, ← encodeWords, ih hrest,
      Word.toBytes_ofLittleEndian rfl]
    rfl
  | case2 bs hshort =>
    match bs with
    | [] => rfl
    | [_] | [_, _] | [_, _, _] | [_, _, _, _] | [_, _, _, _, _] | [_, _, _, _, _, _]
    | [_, _, _, _, _, _, _] => cases h
    | _ :: _ :: _ :: _ :: _ :: _ :: _ :: _ :: _ => exact absurd rfl (hshort _ _ _ _ _ _ _ _ _)

/-- A date that is read is the one whose parts were given. -/
theorem Date.of_make {year month day : Nat} {d : Date} (h : Date.make year month day = .ok d) :
    d.year = year ∧ d.month = month ∧ d.day = day := by
  unfold Date.make Date.ofCalendar at h
  split at h
  · split at h
    · split at h
      · cases h
        exact ⟨rfl, rfl, rfl⟩
      · cases h
    · cases h
  · cases h

theorem Date.make_parts (d : Date) (h : 0 ≤ d.year) :
    Date.make d.year.toNat d.month d.day = .ok d := by
  have hyear : (d.year.toNat : Int) = d.year := Int.toNat_of_nonneg h
  unfold Date.make Date.ofCalendar
  simp only [hyear, Int.toNat_natCast]
  rw [dif_pos d.month_range, dif_pos d.year_range, dif_pos d.day_range]
  rfl

theorem daysInMonth_le (year : Int) (month : Nat) : daysInMonth year month ≤ 31 := by
  unfold daysInMonth
  split
  · split <;> decide
  · split <;> decide

/-- Eight ASCII digits, four of a year, two of a month and two of a day. -/
def dateText (year month day : Nat) : Bytes :=
  [year / 1000, year / 100 % 10, year / 10 % 10, year % 10, month / 10, month % 10, day / 10,
    day % 10].map digitByte

/-- The text of a day of the calendar. -/
def IsDateText (bs : Bytes) : Prop :=
  ∃ year month day : Nat, bs = dateText year month day ∧ year ≤ 9999 ∧
    (1 ≤ month ∧ month ≤ 12) ∧ 1 ≤ day ∧ day ≤ daysInMonth year month

theorem encodeDate_eq {d : Date} (code : Word) (h : 0 ≤ d.year) :
    encodeDate code d = .ok (dateText d.year.toNat d.month d.day) := by
  have hyear := d.year_range
  have hmonth := d.month_range
  have hday := d.day_range
  have hdays := daysInMonth_le d.year d.month
  rw [encodeDate, if_pos h, digitBytes_four (by omega), digitBytes_two (by omega),
    digitBytes_two (by omega)]
  rfl

theorem decodeDate_encodeDate {code other : Word} {d : Date} {bs : Bytes}
    (h : encodeDate code d = .ok bs) : decodeDate other bs = .ok d := by
  have hyear := d.year_range
  have hmonth := d.month_range
  have hday := d.day_range
  have hdays := daysInMonth_le d.year d.month
  unfold encodeDate at h
  split at h
  · have hy : (digitBytes 4 d.year.toNat).length = 4 := by
      rw [digitBytes_four (by omega)]
      rfl
    have hm : (digitBytes 2 d.month).length = 2 := by
      rw [digitBytes_two (by omega)]
      rfl
    have hd : (digitBytes 2 d.day).length = 2 := by
      rw [digitBytes_two (by omega)]
      rfl
    obtain rfl := Except.ok.inj h
    have hfirst : (digitBytes 4 d.year.toNat ++ digitBytes 2 d.month ++ digitBytes 2 d.day).take 4 =
        digitBytes 4 d.year.toNat := by
      rw [List.append_assoc, List.take_left' hy]
    have hsecond : ((digitBytes 4 d.year.toNat ++ digitBytes 2 d.month ++
        digitBytes 2 d.day).drop 4).take 2 = digitBytes 2 d.month := by
      rw [List.append_assoc, List.drop_left' hy, List.take_left' hm]
    have hthird : (digitBytes 4 d.year.toNat ++ digitBytes 2 d.month ++ digitBytes 2 d.day).drop 6 =
        digitBytes 2 d.day := List.drop_left' (by simp [hy, hm])
    unfold decodeDate
    rw [if_pos (by simp [hy, hm, hd]), hfirst, hsecond, hthird]
    simp only [digitsValue?_digitBytes]
    exact d.make_parts ‹_›
  · cases h

theorem encodeDate_of_decodeDate {code other : Word} {d : Date} {bs : Bytes}
    (h : decodeDate code bs = .ok d) : encodeDate other d = .ok bs := by
  unfold decodeDate at h
  split at h
  · next hlength =>
    split at h
    · next year month day hy hm hd =>
      obtain ⟨hyear, hmonth, hday⟩ := Date.of_make h
      have hfirst := digitBytes_of_digitsValue? (show 0 < 4 by decide) (by simp [hlength]) hy
      have hsecond := digitBytes_of_digitsValue? (show 0 < 2 by decide) (by simp [hlength]) hm
      have hthird := digitBytes_of_digitsValue? (show 0 < 2 by decide) (by simp [hlength]) hd
      have hrest := List.take_append_drop 2 (bs.drop 4)
      rw [List.drop_drop] at hrest
      rw [encodeDate, if_pos (by omega), hmonth, hday, hyear, Int.toNat_natCast, hfirst, hsecond,
        hthird, List.append_assoc, hrest, List.take_append_drop]
    · cases h
  · cases h

theorem decodeDate_isOk_iff {code : Word} {bs : Bytes} :
    (∃ d, decodeDate code bs = .ok d) ↔ IsDateText bs := by
  constructor
  · rintro ⟨d, h⟩
    have htext : encodeDate code d = .ok bs := encodeDate_of_decodeDate h
    have hnonneg : 0 ≤ d.year := by
      unfold encodeDate at htext
      split at htext
      · assumption
      · cases htext
    rw [encodeDate_eq code hnonneg] at htext
    have hyear := d.year_range
    refine ⟨d.year.toNat, d.month, d.day, (Except.ok.inj htext).symm, by omega, d.month_range, ?_⟩
    rw [Int.toNat_of_nonneg hnonneg]
    exact d.day_range
  · rintro ⟨year, month, day, rfl, hyear, hmonth, hday⟩
    let d : Date := ⟨year, month, day, by omega, hmonth, hday⟩
    exact ⟨d, decodeDate_encodeDate (encodeDate_eq code (d := d) (Int.natCast_nonneg year))⟩

end Cryptoki
