import Cryptoki.Proofs.Text.Trimming
import Cryptoki.Proofs.Text.Utf8
import Cryptoki.Text.Padded

/-! A text is read back from a field of fixed width whatever it was padded with, be it blanks, a
zero byte with anything behind it, or both. -/
namespace Cryptoki

variable {field rest : Bytes} {t padding : List Char}

/-- What can be told from its padding: the zero byte would end it, and a blank at its end would be
taken off. -/
structure IsUnpadded (t : List Char) : Prop where
  noZero : '\x00' ∉ t
  trimmed : IsTrimmedRight t

theorem zero_not_mem_of_blank (h : ∀ c ∈ padding, isBlank c = true) : '\x00' ∉ padding :=
  fun hmem => absurd (h _ hmem) (by decide)

/-- A zero byte in the text could only have been read off a zero byte in the field. -/
theorem isUnpadded_paddedChars (field : Bytes) : IsUnpadded (paddedChars field) where
  noZero := by
    intro hmem
    obtain ⟨right, hright, -⟩ := exists_trimRight (Utf8.decodeLossy (field.takeWhile (· ≠ 0)))
    have hread : '\x00' ∈ Utf8.decodeLossy (field.takeWhile (· ≠ 0)) := by
      rw [hright]
      exact List.mem_append_left right hmem
    have hzero := Utf8.mem_of_mem_decodeLossy (by decide) hread
    simpa using List.mem_takeWhile_imp hzero
  trimmed := isTrimmedRight_trimRight _

/-- The field ends with its text, or the text ends at a zero byte. -/
theorem paddedChars_append (h : 0 ∉ field) (hrest : ∀ b ∈ rest.head?, b = 0) :
    paddedChars (field ++ rest) = trimRight (Utf8.decodeLossy field) := by
  have hall : ∀ b ∈ field, decide (b ≠ 0) = true := by
    intro b hb
    exact decide_eq_true fun hzero => h (hzero ▸ hb)
  have hnone : rest.takeWhile (· ≠ 0) = [] := by
    cases rest with
    | nil => rfl
    | cons b bs => simp [hrest b rfl]
  rw [paddedChars, List.takeWhile_append_of_pos hall, hnone, List.append_nil]

theorem paddedChars_padded (ht : IsUnpadded t) (hp : ∀ c ∈ padding, isBlank c = true)
    (hrest : ∀ b ∈ rest.head?, b = 0) :
    paddedChars (Utf8.encode t ++ Utf8.encode padding ++ rest) = t := by
  have hzero : (0 : UInt8) ∉ Utf8.encode t ++ Utf8.encode padding := by
    simp [Utf8.zero_not_mem_encode ht.noZero,
      Utf8.zero_not_mem_encode (zero_not_mem_of_blank hp)]
  rw [paddedChars_append hzero hrest, Utf8.decodeLossy_encode_append, Utf8.decodeLossy_encode,
    trimRight_append t hp, trimRight_eq_self ht.trimmed]

/-- What is read is never padded. A text that is not padded is read back from its field with any
blanks behind it, and with a zero byte and any bytes behind these; so reading once more what was
read changes nothing. -/
theorem paddedText_recovers :
    (∀ field, IsUnpadded (paddedText field).toList) ∧
      (∀ t padding : String, IsUnpadded t.toList → (∀ c ∈ padding.toList, isBlank c = true) →
        paddedText (Utf8.encode t.toList ++ Utf8.encode padding.toList) = t ∧
          ∀ rest, paddedText
            (Utf8.encode t.toList ++ Utf8.encode padding.toList ++ 0 :: rest) = t) ∧
      ∀ field, paddedText (Utf8.encode (paddedText field).toList) = paddedText field := by
  have hunpadded : ∀ field, IsUnpadded (paddedText field).toList := by
    intro field
    rw [paddedText, String.toList_ofList]
    exact isUnpadded_paddedChars field
  have hpadded : ∀ (t padding : String) (rest : Bytes), IsUnpadded t.toList →
      (∀ c ∈ padding.toList, isBlank c = true) → (∀ b ∈ rest.head?, b = 0) →
      paddedText (Utf8.encode t.toList ++ Utf8.encode padding.toList ++ rest) = t := by
    intro t padding rest ht hp hrest
    rw [paddedText, paddedChars_padded ht hp hrest, String.ofList_toList]
  refine ⟨hunpadded, fun t padding ht hp => ⟨?_, fun rest => ?_⟩, fun field => ?_⟩
  · have h := hpadded t padding [] ht hp fun _ hb => nomatch hb
    rwa [List.append_nil] at h
  · refine hpadded t padding (0 :: rest) ht hp ?_
    rintro _ ⟨⟩
    rfl
  · have h := hpadded (paddedText field) "" [] (hunpadded field) (by simp) fun _ hb => nomatch hb
    simpa [Utf8.encode] using h

/-- A label with a wide blank inside, padded with blanks of one and of three bytes, and then with a
zero byte and bytes that are no text. -/
theorem paddedText_recovers_wide :
    IsUnpadded "Schlüssel\u30001".toList ∧ (∀ c ∈ " \u3000".toList, isBlank c = true) ∧
      paddedText (Utf8.encode "Schlüssel\u30001".toList ++ Utf8.encode " \u3000".toList) =
        "Schlüssel\u30001" ∧
      paddedText (Utf8.encode "Schlüssel\u30001".toList ++ Utf8.encode " \u3000".toList ++
        0 :: [0x78, 0xFF]) = "Schlüssel\u30001" := by
  have ht : IsUnpadded "Schlüssel\u30001".toList := ⟨by decide, by decide⟩
  have hp : ∀ c ∈ " \u3000".toList, isBlank c = true :=
    List.all_eq_true.mp (by decide)
  obtain ⟨hblank, hzero⟩ := paddedText_recovers.2.1 _ _ ht hp
  exact ⟨ht, hp, hblank, hzero [0x78, 0xFF]⟩

end Cryptoki
