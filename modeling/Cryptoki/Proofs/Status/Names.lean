import Mathlib.Data.List.Induction
import Mathlib.Data.List.TakeWhile
import Cryptoki.Proofs.Since
import Cryptoki.Proofs.Text.Numeral
import Cryptoki.Status.Properties

/-! Tables of status names: which lines hold an entry, and which name a code has in the end. -/
namespace Cryptoki.StatusTable

variable {cs digits left right line : List Char} {ls : List (List Char)} {letter : Char} {n : Nat}
  {code : Word} {name : String}

/-- Markers of base 16 with a letter, one after the other. -/
def markers (letter : Char) : Nat → List Char
  | 0 => []
  | k + 1 => '0' :: letter :: markers letter k

def sign : Bool → List Char
  | true => ['+']
  | false => []

/-- How a code is spelled: the markers with a small letter and then those with a large one, a plus
sign or none, and the digits. -/
structure Spelling where
  small : Nat
  large : Nat
  signed : Bool
  digits : List Char

namespace Spelling

variable {s : Spelling}

def text (s : Spelling) : List Char :=
  markers 'x' s.small ++ (markers 'X' s.large ++ (sign s.signed ++ s.digits))

/-- One marker at most, and no sign. -/
def IsPlain (s : Spelling) : Prop :=
  s.small + s.large ≤ 1 ∧ s.signed = false

theorem IsPlain.text_cases (h : s.IsPlain) :
    s.text = s.digits ∨ s.text = '0' :: 'x' :: s.digits ∨ s.text = '0' :: 'X' :: s.digits := by
  obtain ⟨small, large, signed, digits⟩ := s
  obtain ⟨hmarkers, rfl⟩ : small + large ≤ 1 ∧ signed = false := h
  obtain ⟨rfl, rfl⟩ | ⟨rfl, rfl⟩ | ⟨rfl, rfl⟩ :
      small = 0 ∧ large = 0 ∨ small = 1 ∧ large = 0 ∨ small = 0 ∧ large = 1 := by omega
  · exact .inl rfl
  · exact .inr (.inl rfl)
  · exact .inr (.inr rfl)

/-- Behind the place of a marker, all of a plain spelling are digits. -/
theorem IsPlain.isDigit (h : s.IsPlain) (hvalue : HexNumeral s.digits n) :
    ∀ c ∈ s.text.drop 2, hexDigitValue? c ≠ none := by
  intro c hc
  rcases h.text_cases with htext | htext | htext <;> rw [htext] at hc
  · exact hvalue.isDigit (List.mem_of_mem_drop hc)
  · exact hvalue.isDigit hc
  · exact hvalue.isDigit hc

theorem IsPlain.head?_text (h : s.IsPlain) (hvalue : HexNumeral s.digits n) :
    s.text.head? ≠ some '+' := by
  intro hhead
  rcases h.text_cases with htext | htext | htext <;> rw [htext] at hhead
  · exact hvalue.isDigit (List.mem_of_mem_head? hhead) rfl
  · cases hhead
  · cases hhead

end Spelling

/-- A line that holds an entry: trimmed, it does not begin with a number sign, and it is cut in two
at its first equals sign. On the left stands the code, on the right the name. -/
inductive Holds (line : List Char) (s : Spelling) (code : Word) : String → Prop where
  | intro {left right : List Char} (hremark : (trim line).head? ≠ some '#')
    (hline : trim line = left ++ '=' :: right) (hfirst : '=' ∉ left)
    (hcode : trim left = s.text) (hvalue : HexNumeral s.digits code.toNat)
    (hname : trim right ≠ []) : Holds line s code (String.ofList (trim right))

/-- The last line with an entry for the code gives this name. -/
def Names (ls : List (List Char)) (code : Word) (name : String) : Prop :=
  Since (fun line => ∃ s, Holds line s code name)
    (fun line => ∀ other s, ¬ Holds line s code other) ls

section Numbers

theorem hexNumber?_concat {c : Char} (h : cs ≠ []) :
    hexNumber? (cs ++ [c]) =
      (hexNumber? cs).bind fun n => (hexDigitValue? c).map (16 * n + ·) := by
  simp [hexNumber?, h]

theorem hexNumber?_eq_some_iff : hexNumber? cs = some n ↔ HexNumeral cs n := by
  constructor
  · intro h
    induction cs using List.reverseRecOn generalizing n with
    | nil => cases h
    | append_singleton cs c ih =>
      by_cases hcs : cs = []
      · subst hcs
        have hdigit : hexDigitValue? c = some n := by simpa [hexNumber?] using h
        exact .digit hdigit
      · rw [hexNumber?_concat hcs, Option.bind_eq_some_iff] at h
        obtain ⟨m, hm, h⟩ := h
        obtain ⟨d, hd, rfl⟩ := Option.map_eq_some_iff.mp h
        exact .concat (ih hm) hd
  · intro h
    induction h with
    | digit hd => simp [hexNumber?, hd]
    | concat h hd ih => simp [hexNumber?_concat h.ne_nil, ih, hd]

/-- A number of the size of a word is that of one word. -/
theorem wordOf_eq_some_iff :
    ((hexNumber? cs).bind fun n => if n < UInt64.size then some (UInt64.ofNat n) else none) =
      some code ↔ HexNumeral cs code.toNat := by
  rw [Option.bind_eq_some_iff]
  constructor
  · rintro ⟨m, hm, h⟩
    split at h
    · next hsize =>
      obtain rfl := Option.some.inj h
      rw [UInt64.toNat_ofNat_of_lt' hsize]
      exact hexNumber?_eq_some_iff.mp hm
    · cases h
  · intro h
    exact ⟨code.toNat, hexNumber?_eq_some_iff.mpr h, by simp [code.toNat_lt_size]⟩

theorem hexWord?_eq_some_iff : hexWord? cs = some code ↔
    ∃ signed digits, cs = sign signed ++ digits ∧ HexNumeral digits code.toNat := by
  unfold hexWord?
  split
  · next rest =>
    rw [wordOf_eq_some_iff]
    constructor
    · intro h
      exact ⟨true, rest, rfl, h⟩
    · rintro ⟨signed, digits, he, h⟩
      cases signed with
      | true =>
        obtain rfl := (List.cons.inj he).2
        exact h
      | false =>
        obtain rfl : '+' :: rest = digits := he
        exact absurd rfl (h.isDigit List.mem_cons_self)
  · next hplain =>
    rw [wordOf_eq_some_iff]
    constructor
    · intro h
      exact ⟨false, cs, rfl, h⟩
    · rintro ⟨signed, digits, rfl, h⟩
      cases signed with
      | true => exact absurd rfl (hplain digits)
      | false => exact h

end Numbers

section Markers

theorem dropMarkers_markers_append (k : Nat) (cs : List Char) :
    dropMarkers letter (markers letter k ++ cs) = dropMarkers letter cs := by
  induction k with
  | zero => rfl
  | succ k ih => simpa [markers, dropMarkers] using ih

theorem dropMarkers_of_ne (h : ∀ rest, cs ≠ '0' :: letter :: rest) :
    dropMarkers letter cs = cs := by
  unfold dropMarkers
  split
  · next c rest =>
    split
    · next hc =>
      subst hc
      exact absurd rfl (h rest)
    · rfl
  · rfl

theorem exists_markers (letter : Char) (cs : List Char) :
    ∃ k, cs = markers letter k ++ dropMarkers letter cs := by
  fun_induction dropMarkers letter cs with
  | case1 cs ih =>
    obtain ⟨k, hk⟩ := ih
    exact ⟨k + 1, congrArg ('0' :: letter :: ·) hk⟩
  | case2 => exact ⟨0, rfl⟩
  | case3 => exact ⟨0, rfl⟩

/-- No marker stands behind the last one. -/
theorem sign_append_ne (h : HexNumeral digits n) (hletter : hexDigitValue? letter = none)
    (signed : Bool) (rest : List Char) : sign signed ++ digits ≠ '0' :: letter :: rest := by
  intro he
  cases signed with
  | true => cases (List.cons.inj he).1
  | false =>
    obtain rfl : digits = '0' :: letter :: rest := he
    exact h.isDigit (by simp) hletter

theorem dropMarkers_text {s : Spelling} (h : HexNumeral s.digits n) :
    dropMarkers 'X' (dropMarkers 'x' s.text) = sign s.signed ++ s.digits := by
  have hlarge : ∀ rest,
      markers 'X' s.large ++ (sign s.signed ++ s.digits) ≠ '0' :: 'x' :: rest := by
    intro rest
    cases s.large with
    | zero => exact sign_append_ne h rfl s.signed rest
    | succ k => simp [markers]
  rw [Spelling.text, dropMarkers_markers_append, dropMarkers_of_ne hlarge,
    dropMarkers_markers_append, dropMarkers_of_ne (sign_append_ne h rfl s.signed)]

/-- The codes that are read, and how each is spelled. -/
theorem hexWord?_dropMarkers_iff : hexWord? (dropMarkers 'X' (dropMarkers 'x' cs)) = some code ↔
    ∃ s : Spelling, cs = s.text ∧ HexNumeral s.digits code.toNat := by
  constructor
  · intro h
    obtain ⟨small, hsmall⟩ := exists_markers 'x' cs
    obtain ⟨large, hlarge⟩ := exists_markers 'X' (dropMarkers 'x' cs)
    obtain ⟨signed, digits, hdigits, hvalue⟩ := hexWord?_eq_some_iff.mp h
    refine ⟨⟨small, large, signed, digits⟩, ?_, hvalue⟩
    rw [Spelling.text, ← hdigits, ← hlarge, ← hsmall]
  · rintro ⟨s, rfl, h⟩
    rw [dropMarkers_text h]
    exact hexWord?_eq_some_iff.mpr ⟨s.signed, s.digits, rfl, h⟩

end Markers

section Lines

theorem ne_of_not_mem (h : '=' ∉ cs) : ∀ c ∈ cs, decide (c ≠ '=') = true := by
  intro c hc
  apply decide_eq_true
  rintro rfl
  exact h hc

theorem cut_of_not_mem (right : List Char) (h : '=' ∉ left) :
    (left ++ '=' :: right).takeWhile (· ≠ '=') = left ∧
      (left ++ '=' :: right).dropWhile (· ≠ '=') = '=' :: right := by
  rw [List.takeWhile_append_of_pos (ne_of_not_mem h),
    List.dropWhile_append_of_pos (ne_of_not_mem h)]
  simp

theorem entry?_of_cut (h : '=' ∉ left) : entry? (left ++ '=' :: right) = some (code, name) ↔
    (∃ s : Spelling, trim left = s.text ∧ HexNumeral s.digits code.toNat) ∧
      trim right ≠ [] ∧ name = String.ofList (trim right) := by
  obtain ⟨htake, hdrop⟩ := cut_of_not_mem right h
  rw [← hexWord?_dropMarkers_iff, entry?, hdrop, htake]
  constructor
  · intro hentry
    obtain ⟨w, hw, hentry⟩ := Option.bind_eq_some_iff.mp hentry
    dsimp only at hentry
    split at hentry
    · cases hentry
    · next hname =>
      cases hentry
      exact ⟨hw, hname, rfl⟩
  · rintro ⟨hw, hname, rfl⟩
    refine Option.bind_eq_some_iff.mpr ⟨code, hw, ?_⟩
    rw [if_neg hname]

theorem entry?_of_not_mem (h : '=' ∉ line) : entry? line = none := by
  have hdrop : line.dropWhile (· ≠ '=') = [] := List.dropWhile_eq_nil_iff.mpr (ne_of_not_mem h)
  unfold entry?
  rw [hdrop]

/-- The entry of a line, if it is no remark. -/
def entryOf? (line : List Char) : Option (Word × String) :=
  if isRemark (trim line) then none else entry? (trim line)

theorem isRemark_iff : isRemark line = true ↔ line = [] ∨ line.head? = some '#' := by
  cases line <;> simp [isRemark]

theorem entryOf?_eq_some_iff :
    entryOf? line = some (code, name) ↔ ∃ s, Holds line s code name := by
  unfold entryOf?
  constructor
  · intro h
    split at h
    · cases h
    · next hremark =>
      by_cases hmem : '=' ∈ trim line
      · obtain ⟨left, right, hline, hfirst⟩ := List.eq_append_cons_of_mem hmem
        rw [hline, entry?_of_cut hfirst] at h
        obtain ⟨⟨s, hcode, hvalue⟩, hname, rfl⟩ := h
        have hhead := mt (isRemark_iff.mpr ∘ Or.inr) hremark
        exact ⟨s, .intro hhead hline hfirst hcode hvalue hname⟩
      · rw [entry?_of_not_mem hmem] at h
        cases h
  · rintro ⟨s, hremark, hline, hfirst, hcode, hvalue, hname⟩
    have hno : ¬ isRemark (trim line) = true := by
      rw [isRemark_iff]
      rintro (hblank | hhead)
      · simp [hblank] at hline
      · exact hremark hhead
    rw [if_neg hno, hline, entry?_of_cut hfirst]
    exact ⟨⟨s, hcode, hvalue⟩, hname, rfl⟩

/-- A line is cut in one place only. -/
theorem Holds.text_eq {s : Spelling} (h : Holds line s code name) :
    s.text = trim ((trim line).takeWhile (· ≠ '=')) := by
  obtain ⟨-, hline, hfirst, hcode, -, -⟩ := h
  rw [hline, (cut_of_not_mem _ hfirst).1, hcode]

theorem Holds.value {s : Spelling} (h : Holds line s code name) :
    HexNumeral s.digits code.toNat := by
  cases h
  assumption

end Lines

section Tables

theorem lookup_cons (e : Word × String) (es : List (Word × String)) (code : Word) :
    (e :: es).lookup code = if code = e.1 then some e.2 else es.lookup code := by
  rw [List.lookup_cons]
  by_cases h : code = e.1
  · simp [h]
  · simp [h, beq_false_of_ne h]

theorem find?_insert (t : StatusTable) (code other : Word) (name : String) :
    (t.insert code name).find? other = if other = code then some name else t.find? other := by
  obtain ⟨entries⟩ := t
  simp only [insert, find?]
  induction entries with
  | nil => rw [insertInto, lookup_cons]
  | cons e es ih =>
    unfold insertInto
    split
    · rw [lookup_cons]
    · split
      · next he =>
        rw [lookup_cons, lookup_cons, ← he]
        by_cases h : other = code <;> simp [h]
      · next he =>
        rw [lookup_cons, lookup_cons, ih]
        by_cases h : other = code
        · simp [h, he]
        · simp [h]

theorem insertInto_ne_nil (code : Word) (name : String) (es : List (Word × String)) :
    insertInto code name es ≠ [] := by
  cases es with
  | nil => simp [insertInto]
  | cons e es =>
    unfold insertInto
    split
    · simp
    · split <;> simp

/-- The table that a list of lines makes. -/
def tableOf (ls : List (List Char)) : StatusTable :=
  (readLines (empty, []) 1 ls).1

theorem readLines_concat (acc : StatusTable × List Warning) (number : Nat) (line : List Char) :
    readLines acc number (ls ++ [line]) =
      readLine (readLines acc number ls) (number + ls.length) (trim line) := by
  induction ls generalizing acc number with
  | nil => rfl
  | cons l ls ih =>
    rw [List.cons_append, readLines, readLines, ih, List.length_cons]
    congr 1
    omega

/-- A line changes the table by its entry alone. -/
theorem tableOf_concat (line : List Char) : tableOf (ls ++ [line]) =
    match entryOf? line with
    | some e => (tableOf ls).insert e.1 e.2
    | none => tableOf ls := by
  rw [tableOf, readLines_concat, readLine, entryOf?, tableOf]
  by_cases hremark : isRemark (trim line) = true
  · simp [hremark]
  · simp only [hremark]
    cases entry? (trim line) <;> simp

theorem names_iff : Names ls code name ↔
    Since (entryOf? · = some (code, name)) (∀ other, entryOf? · ≠ some (code, other)) ls := by
  simp only [Names, ne_eq, entryOf?_eq_some_iff, not_exists]

theorem find?_tableOf : (tableOf ls).find? code = some name ↔ Names ls code name := by
  rw [names_iff]
  -- By induction from the end: what the last line says of a code replaces what all others said.
  induction ls using List.reverseRecOn with
  | nil =>
    constructor
    · intro h
      cases h
    · intro h
      exact absurd h not_since_nil
  | append_singleton ls line ih =>
    rw [since_concat, ← ih, tableOf_concat]
    cases hentry : entryOf? line with
    | none => simp
    | some e =>
      obtain ⟨c, other⟩ := e
      rw [find?_insert]
      by_cases hc : code = c
      · simp [hc]
      · simp [hc, Ne.symm hc]

/-- A table has no entries where no line holds one. -/
theorem entries_tableOf : (tableOf ls).entries = [] ↔
    ∀ line ∈ ls, ∀ s code name, ¬ Holds line s code name := by
  have hnone : ∀ line, entryOf? line = none ↔ ∀ s code name, ¬ Holds line s code name := by
    intro line
    rw [Option.eq_none_iff_forall_ne_some]
    constructor
    · intro h s code name hholds
      exact h (code, name) (entryOf?_eq_some_iff.mpr ⟨s, hholds⟩)
    · rintro h ⟨code, name⟩ hentry
      obtain ⟨s, hholds⟩ := entryOf?_eq_some_iff.mp hentry
      exact h s code name hholds
  simp only [← hnone]
  induction ls using List.reverseRecOn with
  | nil => simp [tableOf, readLines, empty]
  | append_singleton ls line ih =>
    rw [tableOf_concat]
    cases hentry : entryOf? line with
    | none => simp [ih, or_imp, forall_and, hentry]
    | some e => simp [insert, insertInto_ne_nil, or_imp, forall_and, hentry]

theorem parse_table (text : String) : (parse text).1 =
    if (tableOf (lines text.toList)).entries = [] then none
    else some (tableOf (lines text.toList)) := by
  unfold parse tableOf
  dsimp only
  split <;> rfl

theorem find?_parse (text : String) :
    (parse text).1.bind (find? · code) = (tableOf (lines text.toList)).find? code := by
  rw [parse_table]
  split
  · next hnil => simp [find?, hnil]
  · rfl

end Tables

/-- There is a table exactly where a line holds an entry, and a code has the name in it that the last
line for this code gives; lines without an entry make no difference. A code is rendered as its name,
or as its number where it has none. A code need not be plainly spelled to be read: all markers in
front of the digits are dropped, not one alone, and a plus sign after them is too. -/
theorem parse_exact (text : String) :
    ((parse text).1 = none ↔
      ∀ line ∈ lines text.toList, ∀ s code name, ¬ Holds line s code name) ∧
    (∀ code name, (parse text).1.bind (find? · code) = some name ↔
      Names (lines text.toList) code name) ∧
    (∀ code name, Names (lines text.toList) code name → render (parse text).1 code = name) ∧
    (∀ code, (∀ name, ¬ Names (lines text.toList) code name) →
      ∃ digits, render (parse text).1 code = "0x" ++ String.ofList digits ∧
        StatusNumeral digits code.toNat) := by
  have hnames : ∀ code name, (parse text).1.bind (find? · code) = some name ↔
      Names (lines text.toList) code name := by
    intro code name
    rw [find?_parse, find?_tableOf]
  refine ⟨?_, hnames, ?_, ?_⟩
  · rw [parse_table, ← entries_tableOf]
    split
    · next hnil => simp [hnil]
    · next hsome => simp [hsome]
  · intro code name h
    rw [render, (hnames code name).mpr h]
  · intro code h
    have hnone : (parse text).1.bind (find? · code) = none := by
      rw [Option.eq_none_iff_forall_ne_some]
      intro name hname
      exact h name ((hnames code name).mp hname)
    rw [render, hnone]
    exact exists_hexOfStatus code

/-- Two lines with codes that are not plainly spelled. -/
def misspelled : String := "0x0x5=N\n+7=L"

theorem parse_exact_misspelled : render (parse misspelled).1 5 = "N" ∧
    Names (lines misspelled.toList) 5 "N" := by
  obtain ⟨-, hnames, hrender, -⟩ := parse_exact misspelled
  have hfive : Names (lines misspelled.toList) 5 "N" := (hnames 5 "N").mp (by decide)
  exact ⟨hrender 5 "N" hfive, hfive⟩

/-- Both are entries of the table, though neither line has a plain spelling. -/
theorem parse_of_misspelled :
    (parse misspelled).1.map (·.entries) = some [(5, "N"), (7, "L")] ∧
    ∀ line ∈ lines misspelled.toList, ∀ s code name, Holds line s code name → ¬ s.IsPlain := by
  refine ⟨by decide, ?_⟩
  intro line hline s code name hholds hplain
  have hdigits := hplain.isDigit hholds.value
  have hhead := hplain.head?_text hholds.value
  rw [hholds.text_eq] at hdigits hhead
  obtain rfl | rfl : line = "0x0x5=N".toList ∨ line = "+7=L".toList := by
    have hlines : lines misspelled.toList = ["0x0x5=N".toList, "+7=L".toList] := by decide
    simpa [hlines] using hline
  · exact hdigits 'x' (by decide) rfl
  · exact hhead (by decide)

end Cryptoki.StatusTable
