import Mathlib.Algebra.Group.Nat.Defs
import Mathlib.Tactic.SplitIfs
import Cryptoki.Text.Utf8

/-! Encoded characters are read back with whatever follows them, and a character of ASCII is only
ever read off its own byte. -/
namespace Cryptoki.Utf8

variable {b : UInt8} {bs : Bytes} {c : Char} {cs : List Char} {p : Pending} {o : Opening}
variable {s : Option Pending} {v low high : Nat}

/-- The text read from the bytes that come after those of an opening. -/
def Opening.resume : Opening → Bytes → List Char
  | .done c, bs => c :: decodeLossyFrom none bs
  | .more p, bs => decodeLossyFrom (some p) bs
  | .fault, bs => replacement :: decodeLossyFrom none bs

theorem decodeLossyFrom_none_cons (b : UInt8) (bs : Bytes) :
    decodeLossyFrom none (b :: bs) = (opening b).resume bs := by
  rw [decodeLossyFrom]
  cases opening b <;> rfl

theorem decodeLossyFrom_some_cons (p : Pending) (b : UInt8) (bs : Bytes) :
    decodeLossyFrom (some p) (b :: bs) =
      if p.accepts b then (p.push b).resume bs else replacement :: (opening b).resume bs := by
  rw [decodeLossyFrom]
  cases p.push b <;> cases opening b <;> rfl

/-- The byte that carries the last six bits of a value. -/
def tail (v : Nat) : UInt8 := UInt8.ofNat (v % 64 + 0x80)

theorem toNat_tail (v : Nat) : (tail v).toNat = v % 64 + 0x80 := by
  rw [tail, UInt8.toNat_ofNat']
  omega

theorem decodeLossyFrom_tail (read need : Nat) (bs : Bytes) (hlow : low ≤ v % 64 + 0x80)
    (hhigh : v % 64 + 0x80 ≤ high) :
    decodeLossyFrom (some ⟨v / 64, read, need, low, high⟩) (tail v :: bs) =
      if need = 1 then Char.ofNat v :: decodeLossyFrom none bs
      else decodeLossyFrom (some ⟨v, read + 1, need - 1, 0x80, 0xBF⟩) bs := by
  have hvalue : v / 64 * 64 + (v % 64 + 0x80) % 64 = v := by omega
  simp only [decodeLossyFrom_some_cons, Pending.accepts, Pending.push, toNat_tail, hlow, hhigh,
    hvalue, decide_true, Bool.and_self, if_true]
  split <;> rfl

theorem opening_ascii (hv : v ≤ 0x7F) : opening (UInt8.ofNat v) = .done (Char.ofNat v) := by
  have hbyte : (UInt8.ofNat v).toNat = v := by
    rw [UInt8.toNat_ofNat']
    omega
  rw [opening, hbyte]
  exact if_pos (by omega)

theorem opening_two (hleast : 0x7F < v) (hmost : v ≤ 0x7FF) :
    opening (UInt8.ofNat (v / 64 % 32 + 0xC0)) = .more ⟨v / 64, 1, 1, 0x80, 0xBF⟩ := by
  have hbyte : (UInt8.ofNat (v / 64 % 32 + 0xC0)).toNat = v / 64 + 0xC0 := by
    rw [UInt8.toNat_ofNat']
    omega
  have hvalue : (v / 64 + 0xC0) % 32 = v / 64 := by omega
  rw [opening, hbyte, if_neg (by omega), if_neg (by omega), if_pos (by omega), hvalue]

/-- The bounds of the second byte leave out what two bytes can say, and the surrogates. -/
theorem opening_three (hleast : 0x7FF < v) (hmost : v ≤ 0xFFFF) (hvalid : v < 0xD800 ∨ 0xDFFF < v) :
    ∃ low high, opening (UInt8.ofNat (v / 4096 % 16 + 0xE0)) =
        .more ⟨v / 64 / 64, 1, 2, low, high⟩ ∧
      low ≤ v / 64 % 64 + 0x80 ∧ v / 64 % 64 + 0x80 ≤ high := by
  have hbyte : (UInt8.ofNat (v / 4096 % 16 + 0xE0)).toNat = v / 4096 + 0xE0 := by
    rw [UInt8.toNat_ofNat']
    omega
  have hvalue : (v / 4096 + 0xE0) % 16 = v / 64 / 64 := by omega
  rw [opening, hbyte, if_neg (by omega), if_neg (by omega), if_neg (by omega), hvalue]
  split
  · exact ⟨0xA0, 0xBF, rfl, by omega, by omega⟩
  split
  · exact ⟨0x80, 0x9F, rfl, by omega, by omega⟩
  · rw [if_pos (by omega)]
    exact ⟨0x80, 0xBF, rfl, by omega, by omega⟩

theorem opening_four (hleast : 0xFFFF < v) (hmost : v < 0x110000) :
    ∃ low high, opening (UInt8.ofNat (v / 262144 % 8 + 0xF0)) =
        .more ⟨v / 64 / 64 / 64, 1, 3, low, high⟩ ∧
      low ≤ v / 64 / 64 % 64 + 0x80 ∧ v / 64 / 64 % 64 + 0x80 ≤ high := by
  have hbyte : (UInt8.ofNat (v / 262144 % 8 + 0xF0)).toNat = v / 262144 + 0xF0 := by
    rw [UInt8.toNat_ofNat']
    omega
  have hvalue : (v / 262144 + 0xF0) % 8 = v / 64 / 64 / 64 := by omega
  rw [opening, hbyte, if_neg (by omega), if_neg (by omega), if_neg (by omega), if_neg (by omega),
    if_neg (by omega), if_neg (by omega), hvalue]
  split
  · exact ⟨0x90, 0xBF, rfl, by omega, by omega⟩
  split
  · exact ⟨0x80, 0xBF, rfl, by omega, by omega⟩
  · rw [if_pos (by omega)]
    exact ⟨0x80, 0x8F, rfl, by omega, by omega⟩

theorem decodeLossyFrom_encodeChar (c : Char) (bs : Bytes) :
    decodeLossyFrom none (String.utf8EncodeChar c ++ bs) = c :: decodeLossyFrom none bs := by
  have hvalid : c.val.toNat < 0xD800 ∨ 0xDFFF < c.val.toNat ∧ c.val.toNat < 0x110000 := c.valid
  have hc : Char.ofNat c.val.toNat = c := Char.ofNat_toNat c
  fun_cases String.utf8EncodeChar c with
  | case1 v h =>
    rw [List.cons_append, decodeLossyFrom_none_cons, opening_ascii h, hc]
    rfl
  | case2 v h1 h2 =>
    change decodeLossyFrom none (UInt8.ofNat (v / 64 % 32 + 0xC0) :: tail v :: bs) = _
    rw [decodeLossyFrom_none_cons, opening_two (by omega) h2, Opening.resume,
      decodeLossyFrom_tail 1 1 bs (by omega) (by omega), if_pos rfl, hc]
  | case3 v h1 h2 h3 =>
    obtain ⟨low, high, hopen, hlow, hhigh⟩ := opening_three (v := v) (by omega) h3 (by omega)
    change decodeLossyFrom none
      (UInt8.ofNat (v / 4096 % 16 + 0xE0) :: tail (v / 64) :: tail v :: bs) = _
    rw [decodeLossyFrom_none_cons, hopen, Opening.resume, decodeLossyFrom_tail 1 2 _ hlow hhigh,
      if_neg (by decide), decodeLossyFrom_tail 2 1 bs (by omega) (by omega), if_pos rfl, hc]
  | case4 v h1 h2 h3 =>
    obtain ⟨low, high, hopen, hlow, hhigh⟩ := opening_four (v := v) (by omega) (by omega)
    change decodeLossyFrom none (UInt8.ofNat (v / 262144 % 8 + 0xF0) ::
      UInt8.ofNat (v / 4096 % 64 + 0x80) :: tail (v / 64) :: tail v :: bs) = _
    have htail : UInt8.ofNat (v / 4096 % 64 + 0x80) = tail (v / 64 / 64) := by
      rw [tail, Nat.div_div_eq_div_mul]
    rw [decodeLossyFrom_none_cons, hopen, Opening.resume, htail,
      decodeLossyFrom_tail 1 3 _ hlow hhigh, if_neg (by decide),
      decodeLossyFrom_tail 2 2 _ (by omega) (by omega), if_neg (by decide),
      decodeLossyFrom_tail 3 1 bs (by omega) (by omega), if_pos rfl, hc]

theorem decodeLossy_encode_append (cs : List Char) (bs : Bytes) :
    decodeLossy (encode cs ++ bs) = cs ++ decodeLossy bs := by
  induction cs with
  | nil => rfl
  | cons c cs ih =>
    rw [encode, List.flatMap_cons, List.append_assoc, decodeLossy, decodeLossyFrom_encodeChar]
    exact congrArg (c :: ·) ih

theorem decodeLossy_encode (cs : List Char) : decodeLossy (encode cs) = cs := by
  have h := decodeLossy_encode_append cs []
  rw [List.append_nil] at h
  exact h.trans (List.append_nil cs)

/-- A byte below 0x80 is all there is of its character. -/
theorem toNat_of_mem_encodeChar (hb : b ∈ String.utf8EncodeChar c) (h : b.toNat < 0x80) :
    c.toNat = b.toNat := by
  revert hb
  fun_cases String.utf8EncodeChar c with
  | case1 v hv =>
    intro hb
    obtain rfl := List.mem_singleton.mp hb
    have hv : c.toNat ≤ 0x7F := hv
    exact (Nat.mod_eq_of_lt (by omega)).symm
  | case2 v =>
    simp only [List.mem_cons, List.not_mem_nil, or_false]
    rintro (rfl | rfl) <;> rw [UInt8.toNat_ofNat'] at h <;> omega
  | case3 v =>
    simp only [List.mem_cons, List.not_mem_nil, or_false]
    rintro (rfl | rfl | rfl) <;> rw [UInt8.toNat_ofNat'] at h <;> omega
  | case4 v =>
    simp only [List.mem_cons, List.not_mem_nil, or_false]
    rintro (rfl | rfl | rfl | rfl) <;> rw [UInt8.toNat_ofNat'] at h <;> omega

theorem zero_not_mem_encode (h : '\x00' ∉ cs) : 0 ∉ encode cs := by
  intro hmem
  obtain ⟨c, hc, hbyte⟩ := List.mem_flatMap.mp hmem
  have hzero : c = '\x00' := Char.toNat_inj.mp (toNat_of_mem_encodeChar hbyte (by decide))
  exact h (hzero ▸ hc)

/-- What the value can still become: the next byte is within its bounds, and all later ones are
free. -/
def Pending.Covers (p : Pending) (n : Nat) : Prop :=
  p.value * 64 + (p.low - 0x80) ≤ n / 64 ^ (p.need - 1) ∧
    n / 64 ^ (p.need - 1) ≤ p.value * 64 + (p.high - 0x80)

/-- Whatever the value becomes, it is that of a character above ASCII. -/
structure Pending.Fits (p : Pending) : Prop where
  need : 0 < p.need
  low : 0x80 ≤ p.low
  high : p.high ≤ 0xBF
  value : ∀ n, p.Covers n → 0x80 ≤ n ∧ (n < 0xD800 ∨ 0xDFFF < n ∧ n < 0x110000)

/-- A character of ASCII is opened by its own byte only. -/
def Opening.Fits (b : UInt8) : Opening → Prop
  | .done c => c.toNat < 0x80 → UInt8.ofNat c.toNat = b
  | .more p => p.Fits
  | .fault => True

theorem toNat_ofNat (h : v.isValidChar) : (Char.ofNat v).toNat = v := by
  rw [Char.ofNat, dif_pos h]
  rfl

theorem opening_fits (b : UInt8) : (opening b).Fits b := by
  have hb : b.toNat < 256 := UInt8.toNat_lt b
  rw [opening]
  split_ifs
  case pos =>
    intro _
    rw [toNat_ofNat (Or.inl (by omega)), UInt8.ofNat_toNat]
  -- What fewer bytes can say, the surrogates and what no character has are out of the bounds.
  all_goals first
    | trivial
    | refine ⟨Nat.succ_pos _, by dsimp only; omega, by dsimp only; omega, fun n hn => ?_⟩
      simp only [Pending.Covers, Nat.reduceSub, Nat.reducePow] at hn
      omega

theorem covers_push {read need : Nat} (hneed : p.need = need + 2) (hp : p.Fits)
    (hb : p.accepts b)
    (h : (Pending.mk (p.value * 64 + b.toNat % 64) read (need + 1) 0x80 0xBF).Covers v) :
    p.Covers v := by
  have hlow := hp.low
  have hhigh := hp.high
  simp only [Pending.accepts, Bool.and_eq_true, decide_eq_true_eq] at hb
  simp only [Pending.Covers, Nat.add_sub_cancel] at h
  have hdiv : v / 64 ^ (need + 1) = v / 64 ^ need / 64 := by
    rw [Nat.pow_succ, Nat.div_div_eq_div_mul]
  rw [Pending.Covers, hneed, Nat.add_sub_assoc (by decide), hdiv]
  omega

theorem push_fits (hp : p.Fits) (hb : p.accepts b) : (p.push b).Fits b := by
  obtain ⟨need, hneed⟩ : ∃ need, p.need = need + 1 :=
    ⟨p.need - 1, (Nat.sub_add_cancel hp.need).symm⟩
  rw [Pending.push, hneed]
  cases need with
  | zero =>
    have hcovers : p.Covers (p.value * 64 + b.toNat % 64) := by
      have hlow := hp.low
      have hhigh := hp.high
      simp only [Pending.accepts, Bool.and_eq_true, decide_eq_true_eq] at hb
      simp only [Pending.Covers, hneed, Nat.sub_self, Nat.pow_zero, Nat.div_one]
      omega
    obtain ⟨habove, hvalid⟩ := hp.value _ hcovers
    intro hascii
    rw [toNat_ofNat hvalid] at hascii
    omega
  | succ need =>
    exact ⟨Nat.succ_pos _, Nat.le_refl _, Nat.le_refl _,
      fun n hn => hp.value n (covers_push hneed hp hb hn)⟩

/-- A sequence that is under way fits. -/
def Fits (s : Option Pending) : Prop := ∀ p ∈ s, p.Fits

theorem fits_none : Fits none := fun _ h => nomatch h

theorem mem_of_mem_resume (ho : o.Fits b) (hc : c.toNat < 0x80) (h : c ∈ o.resume bs)
    (ih : ∀ s, Fits s → c ∈ decodeLossyFrom s bs → UInt8.ofNat c.toNat ∈ bs) :
    UInt8.ofNat c.toNat ∈ b :: bs := by
  cases o with
  | done d =>
    rcases List.mem_cons.mp h with rfl | h
    · exact List.mem_cons.mpr (.inl (ho hc))
    · exact List.mem_cons_of_mem _ (ih none fits_none h)
  | more p => exact List.mem_cons_of_mem _ (ih (some p) (by rintro _ ⟨⟩; exact ho) h)
  | fault =>
    rcases List.mem_cons.mp h with rfl | h
    · exact absurd hc (by decide)
    · exact List.mem_cons_of_mem _ (ih none fits_none h)

theorem mem_of_mem_decodeLossyFrom (hs : Fits s) (hc : c.toNat < 0x80)
    (h : c ∈ decodeLossyFrom s bs) : UInt8.ofNat c.toNat ∈ bs := by
  have hreplaced : c ≠ replacement := by
    rintro rfl
    exact absurd hc (by decide)
  induction bs generalizing s with
  | nil =>
    cases s with
    | none => exact absurd h List.not_mem_nil
    | some p => exact absurd (List.mem_singleton.mp h) hreplaced
  | cons b bs ih =>
    cases s with
    | none =>
      rw [decodeLossyFrom_none_cons] at h
      exact mem_of_mem_resume (opening_fits b) hc h fun s => ih
    | some p =>
      rw [decodeLossyFrom_some_cons] at h
      split at h
      · next hb => exact mem_of_mem_resume (push_fits (hs p rfl) hb) hc h fun s => ih
      · have h := List.mem_of_ne_of_mem hreplaced h
        exact mem_of_mem_resume (opening_fits b) hc h fun s => ih

theorem mem_of_mem_decodeLossy (hc : c.toNat < 0x80) (h : c ∈ decodeLossy bs) :
    UInt8.ofNat c.toNat ∈ bs :=
  mem_of_mem_decodeLossyFrom fits_none hc h

end Cryptoki.Utf8
