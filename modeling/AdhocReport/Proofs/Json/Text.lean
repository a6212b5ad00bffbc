import AdhocReport.Json.Reader
import AdhocReport.Json.Writer
import Mathlib.Data.Nat.Notation
set_option autoImplicit false

/-!
# Written strings are read back

A string ends at the first quote that is not escaped, and each of its characters is read back from the
one, two, six or twelve characters that write it.
-/

namespace AdhocReport.Json

theorem hexValue?_hexDigit {n : ℕ} (h : n < 16) : hexValue? (hexDigit n) = some n := by
  have htable : ∀ n < 16, hexValue? (hexDigit n) = some n := by decide
  exact htable n h

theorem hexDigits_four (n : ℕ) : hexDigits 4 n =
    [hexDigit (n / 4096 % 16), hexDigit (n / 256 % 16), hexDigit (n / 16 % 16), hexDigit (n % 16)] := by
  simp only [hexDigits, List.nil_append, List.cons_append, Nat.div_div_eq_div_mul]

/-- A unit is read back from its digits. -/
theorem readUnit_hexDigits {n : ℕ} (h : n < 65536) (cs : List Char) :
    readUnit (hexDigits 4 n ++ cs) = some (n, cs) := by
  rw [hexDigits_four]
  simp only [List.cons_append, List.nil_append, readUnit,
    hexValue?_hexDigit (Nat.mod_lt _ (by decide : 0 < 16)), Option.pure_def, Option.bind_eq_bind,
    Option.bind_some]
  congr 2
  omega

/-- A unit that is no high surrogate is read back from its escape. -/
theorem readString_unitEscape {n : ℕ} (hsmall : n < 0xD800 ∨ 0xDBFF < n) (h : n < 65536) (fuel : ℕ)
    (acc cs : List Char) :
    readString (fuel + 1) acc (unitEscape n ++ cs) = readString fuel (Char.ofNat n :: acc) cs := by
  have hsingle : ¬(0xD800 ≤ n ∧ n ≤ 0xDBFF) := by omega
  simp only [unitEscape, List.cons_append, readString, readUnit_hexDigits h, Option.bind_eq_bind,
    Option.bind_some, if_neg hsingle]

/-- A pair of surrogates is read back from its two escapes. -/
theorem readString_pair {high low : ℕ} (hisHigh : 0xD800 ≤ high ∧ high ≤ 0xDBFF)
    (hisLow : 0xDC00 ≤ low ∧ low ≤ 0xDFFF) (fuel : ℕ) (acc cs : List Char) :
    readString (fuel + 1) acc (unitEscape high ++ (unitEscape low ++ cs)) =
      readString fuel (Char.ofNat (0x10000 + (high - 0xD800) * 0x400 + (low - 0xDC00)) :: acc) cs := by
  have hfirst : high < 65536 := by omega
  have hsecond : low < 65536 := by omega
  simp only [unitEscape, List.cons_append, readString, readUnit_hexDigits hfirst, readLowUnit,
    readUnit_hexDigits hsecond, Option.bind_eq_bind, Option.bind_some, if_pos hisHigh, if_pos hisLow,
    Option.pure_def]

theorem readString_simple {c e : Char} (h : simpleEscape? e = some c) (fuel : ℕ) (acc cs : List Char) :
    readString (fuel + 1) acc ('\\' :: e :: cs) = readString fuel (c :: acc) cs := by
  have hunit : e ≠ 'u' := by
    rintro rfl
    cases h
  rw [readString.eq_def]
  simp only [h, Option.bind_eq_bind, Option.bind_some]

/-- A character that stands for itself is read as it is. -/
theorem readString_plain {c : Char} (hquote : c ≠ '"') (hescape : c ≠ '\\') (hshown : 0x20 ≤ c.toNat)
    (fuel : ℕ) (acc cs : List Char) :
    readString (fuel + 1) acc (c :: cs) = readString fuel (c :: acc) cs := by
  have hprinted : ¬c.toNat < 0x20 := by omega
  rw [readString.eq_def]
  dsimp only
  split
  · rename_i hwrong
    cases hwrong
  · rename_i hsame
    exact absurd (List.cons.inj hsame).1 hquote
  · rename_i hsame
    exact absurd (List.cons.inj hsame).1 hescape
  · rename_i hsame
    exact absurd (List.cons.inj hsame).1 hescape
  · rename_i hsame
    cases hsame
    rw [if_neg hprinted]

theorem toNat_valid (c : Char) : c.toNat < 0xD800 ∨ 0xDFFF < c.toNat ∧ c.toNat < 0x110000 :=
  c.valid

/-- A character has a short escape, or stands for itself, or is written by its units. -/
theorem writeChar_cases (c : Char) :
    (∃ e, simpleEscape? e = some c ∧ writeChar c = ['\\', e]) ∨
      (c ≠ '"' ∧ c ≠ '\\' ∧ 0x20 ≤ c.toNat ∧ writeChar c = [c]) ∨ writeChar c = escapeChar c := by
  have hknown : ∀ {d e : Char}, (c == d) = true → simpleEscape? e = some d → simpleEscape? e = some c := by
    intro d e hsame hescape
    rw [hescape, beq_iff_eq.mp hsame]
  have hnumbered : ∀ {n : ℕ} {e : Char}, (c.toNat == n) = true → simpleEscape? e = some (Char.ofNat n) →
      simpleEscape? e = some c := by
    intro n e hsame hescape
    rw [hescape, ← beq_iff_eq.mp hsame, Char.ofNat_toNat]
  unfold writeChar
  split
  · rename_i hsame
    exact .inl ⟨_, hknown hsame rfl, rfl⟩
  rename_i hquote
  split
  · rename_i hsame
    exact .inl ⟨_, hknown hsame rfl, rfl⟩
  rename_i hescape
  split
  · rename_i hsame
    exact .inl ⟨_, hknown hsame rfl, rfl⟩
  split
  · rename_i hsame
    exact .inl ⟨_, hknown hsame rfl, rfl⟩
  split
  · rename_i hsame
    exact .inl ⟨_, hknown hsame rfl, rfl⟩
  split
  · rename_i hsame
    exact .inl ⟨_, hnumbered hsame rfl, rfl⟩
  split
  · rename_i hsame
    exact .inl ⟨_, hnumbered hsame rfl, rfl⟩
  split
  · rename_i hshown
    exact .inr (.inl ⟨by simpa using hquote, by simpa using hescape, hshown.1, rfl⟩)
  · exact .inr (.inr rfl)

theorem readString_escapeChar (c : Char) (fuel : ℕ) (acc cs : List Char) :
    readString (fuel + 1) acc (escapeChar c ++ cs) = readString fuel (c :: acc) cs := by
  have hvalid := toNat_valid c
  have hwhole : Char.ofNat c.toNat = c := Char.ofNat_toNat c
  unfold escapeChar
  split
  · rename_i hsmall
    rw [readString_unitEscape (by omega) hsmall, hwhole]
  · rename_i hlarge
    have hvalue : 0x10000 + (0xD800 + (c.toNat - 0x10000) / 0x400 - 0xD800) * 0x400 +
        (0xDC00 + (c.toNat - 0x10000) % 0x400 - 0xDC00) = c.toNat := by omega
    rw [List.append_assoc, readString_pair (by omega) (by omega), hvalue, hwhole]

/-- A written character is read back. -/
theorem readString_writeChar (c : Char) (fuel : ℕ) (acc cs : List Char) :
    readString (fuel + 1) acc (writeChar c ++ cs) = readString fuel (c :: acc) cs := by
  rcases writeChar_cases c with ⟨e, hescape, htext⟩ | ⟨hquote, hescape, hshown, htext⟩ | htext
  · rw [htext]
    exact readString_simple hescape fuel acc cs
  · rw [htext]
    exact readString_plain hquote hescape hshown fuel acc cs
  · rw [htext]
    exact readString_escapeChar c fuel acc cs

/-- A written string is read back, and what follows it is left. -/
theorem readString_flatMap (cs : List Char) : ∀ {fuel : ℕ} (acc rest : List Char), cs.length < fuel →
    readString fuel acc (cs.flatMap writeChar ++ '"' :: rest) =
      some (String.ofList (acc.reverse ++ cs), rest) := by
  induction cs with
  | nil =>
    intro fuel acc rest henough
    obtain ⟨n, rfl⟩ : ∃ n, fuel = n + 1 := ⟨fuel - 1, by omega⟩
    rw [List.flatMap_nil, List.nil_append, List.append_nil]
    rfl
  | cons c cs ih =>
    intro fuel acc rest henough
    rw [List.length_cons] at henough
    obtain ⟨n, rfl⟩ : ∃ n, fuel = n + 1 := ⟨fuel - 1, by omega⟩
    rw [List.flatMap_cons, List.append_assoc, readString_writeChar, ih (c :: acc) rest (by omega),
      List.reverse_cons, List.append_assoc, List.singleton_append]

theorem writeText_append (s : String) (rest : List Char) :
    writeText s ++ rest = '"' :: (s.toList.flatMap writeChar ++ '"' :: rest) := by
  rw [writeText, List.cons_append, List.cons_append, List.append_assoc, List.singleton_append]

/-- A written string tells itself and what follows it. -/
theorem writeText_append_inj {s s' : String} {rest rest' : List Char}
    (h : writeText s ++ rest = writeText s' ++ rest') : s = s' ∧ rest = rest' := by
  rw [writeText_append, writeText_append] at h
  have hbody := (List.cons.inj h).2
  have hread := readString_flatMap s.toList [] rest (show _ < s.toList.length + s'.toList.length + 1 by omega)
  rw [hbody, readString_flatMap s'.toList [] rest' (by omega)] at hread
  have hsame := Prod.mk.inj (Option.some.inj hread)
  rw [List.reverse_nil, List.nil_append, List.nil_append, String.ofList_toList, String.ofList_toList] at hsame
  exact ⟨hsame.1.symm, hsame.2.symm⟩

end AdhocReport.Json
