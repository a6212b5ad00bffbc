import AdhocReport.Proofs.Json.Text
import AdhocReport.Proofs.Decimal.Notation
set_option autoImplicit false

/-!
# Unique readability of JSON text

A written value tells itself and what follows it.  A string ends at its closing quote; a number or a
named value ends before a character that can follow values; and the first character of a value tells
which of these it is, so a list and an object are read item by item.
-/

namespace AdhocReport.Json

/-! ## Numbers and named values -/

/-- The characters that can follow a value. -/
def isStop (c : Char) : Bool := c == ',' || c == ']' || c == '\x7d'

/-- What can follow a value: nothing, or a stop. -/
def Ended (cs : List Char) : Prop := ∀ c rest, cs = c :: rest → isStop c = true

theorem ended_nil : Ended [] := by
  intro c rest h
  cases h

theorem ended_cons {c : Char} {cs : List Char} (h : isStop c = true) : Ended (c :: cs) := by
  intro d rest hsame
  cases hsame
  exact h

/-- Texts without stops are told from what follows them. -/
theorem append_inj_of_stop {xs ys rest rest' : List Char} (hx : ∀ c ∈ xs, isStop c = false)
    (hy : ∀ c ∈ ys, isStop c = false) (hended : Ended rest) (hended' : Ended rest')
    (h : xs ++ rest = ys ++ rest') : xs = ys ∧ rest = rest' := by
  have hsplit : ∀ {zs r : List Char}, (∀ c ∈ zs, isStop c = false) → Ended r →
      (zs ++ r).takeWhile (fun c => !isStop c) = zs := by
    intro zs r hclear hended
    rw [List.takeWhile_append_of_pos (fun c h => by rw [hclear c h]; rfl)]
    cases r with
    | nil => rw [List.takeWhile_nil, List.append_nil]
    | cons c r => rw [List.takeWhile_cons_of_neg (by rw [hended c r rfl]; decide), List.append_nil]
  have hsame : xs = ys := by rw [← hsplit hx hended, h, hsplit hy hended']
  subst hsame
  exact ⟨rfl, List.append_cancel_left h⟩

/-- The characters of an integer. -/
def IsWhole (c : Char) : Prop := c = '-' ∨ c.isDigit = true

theorem isStop_of_isNumeral {c : Char} (h : Decimal.IsNumeral c) : isStop c = false := by
  have hother : ∀ d : Char, d.isDigit = false → c.isDigit = true → (c == d) = false := by
    intro d hplain hdigit
    rw [beq_eq_false_iff_ne]
    rintro rfl
    rw [hplain] at hdigit
    cases hdigit
  rcases h with hdigit | rfl | rfl | rfl | rfl
  · simp only [isStop, hother ',' rfl hdigit, hother ']' rfl hdigit, hother '\x7d' rfl hdigit, Bool.or_self]
  all_goals rfl

theorem IsWhole.isNumeral {c : Char} (h : IsWhole c) : Decimal.IsNumeral c := by
  rcases h with rfl | hdigit
  · exact .inr (.inr (.inr (.inl rfl)))
  · exact .inl hdigit

theorem intText_whole (n : ℤ) : ∀ c ∈ (Decimal.intText n).toList, IsWhole c := by
  intro c hmember
  rw [Decimal.intText_toList] at hmember
  rcases List.mem_append.mp hmember with h | h
  · split at h
    · exact .inl (List.mem_singleton.mp h)
    · cases h
  · exact .inr (Decimal.isDigit_of_mem_toDigits h)

theorem intText_cons (n : ℤ) : ∃ c rest, (Decimal.intText n).toList = c :: rest := by
  obtain ⟨d, ds, hdigits, -⟩ := Decimal.toDigits_cons n.natAbs
  rw [Decimal.intText_toList, hdigits]
  split
  · exact ⟨'-', d :: ds, rfl⟩
  · exact ⟨d, ds, rfl⟩

/-- A float is written as one of three names, or as its number. -/
theorem writeFloat_cases (x : Float) :
    (x.isNaN = true ∧ writeFloat x = "NaN") ∨
      (x.isInf = true ∧ Decimal.isNegative x = true ∧ writeFloat x = "-Infinity") ∨
      (x.isInf = true ∧ Decimal.isNegative x = false ∧ writeFloat x = "Infinity") ∨
      (x.isNaN = false ∧ x.isInf = false ∧ writeFloat x = Decimal.floatText x) := by
  unfold writeFloat
  cases hnumber : x.isNaN
  · cases hfinite : x.isInf
    · exact .inr (.inr (.inr ⟨rfl, rfl, rfl⟩))
    · cases hsign : Decimal.isNegative x
      · exact .inr (.inr (.inl ⟨rfl, rfl, rfl⟩))
      · exact .inr (.inl ⟨rfl, rfl, rfl⟩)
  · exact .inl ⟨rfl, rfl⟩

/-- The characters of a finite float are those of a number, and not all of them are those of an
integer. -/
theorem floatText_numeral {x : Float} (hnumber : x.isNaN = false) (hfinite : x.isInf = false) :
    (∀ c ∈ (Decimal.floatText x).toList, Decimal.IsNumeral c) ∧
      ∃ c ∈ (Decimal.floatText x).toList, ¬IsWhole c := by
  obtain ⟨c, rest, htext, -, hchars, ⟨d, hmember, hmarked⟩, -⟩ := Decimal.floatText_toList hnumber hfinite
  rw [htext]
  refine ⟨?_, d, List.mem_append_right _ hmember, ?_⟩
  · intro e h
    rcases List.mem_append.mp h with h | h
    · split at h
      · rw [List.mem_singleton.mp h]
        exact .inr (.inr (.inr (.inl rfl)))
      · cases h
    · exact hchars e h
  · rcases hmarked with rfl | rfl <;> simp [IsWhole]

theorem clear_of_all {cs : List Char} (h : (cs.all fun c => !isStop c) = true) :
    ∀ c ∈ cs, isStop c = false := by
  intro c hmember
  simpa using List.all_eq_true.mp h c hmember

theorem writeFloat_clear (x : Float) : ∀ c ∈ (writeFloat x).toList, isStop c = false := by
  rcases writeFloat_cases x with ⟨-, htext⟩ | ⟨-, -, htext⟩ | ⟨-, -, htext⟩ | ⟨hnumber, hfinite, htext⟩
  · rw [htext]
    exact clear_of_all rfl
  · rw [htext]
    exact clear_of_all rfl
  · rw [htext]
    exact clear_of_all rfl
  · rw [htext]
    exact fun c h => isStop_of_isNumeral ((floatText_numeral hnumber hfinite).1 c h)

theorem writeFloat_not_whole (x : Float) : ∃ c ∈ (writeFloat x).toList, ¬IsWhole c := by
  rcases writeFloat_cases x with ⟨-, htext⟩ | ⟨-, -, htext⟩ | ⟨-, -, htext⟩ | ⟨hnumber, hfinite, htext⟩
  · exact ⟨'N', by rw [htext]; decide, by simp [IsWhole]⟩
  · exact ⟨'I', by rw [htext]; decide, by simp [IsWhole]⟩
  · exact ⟨'I', by rw [htext]; decide, by simp [IsWhole]⟩
  · rw [htext]
    exact (floatText_numeral hnumber hfinite).2

/-- A name is not the text of a finite float. -/
theorem ne_floatText {w : String} {x : Float} (hnumber : x.isNaN = false) (hfinite : x.isInf = false)
    {c : Char} (hmember : c ∈ w.toList) (hletter : ¬Decimal.IsNumeral c) : w ≠ Decimal.floatText x := by
  rintro rfl
  exact hletter ((floatText_numeral hnumber hfinite).1 c hmember)

/-- A float is known from its text. -/
theorem writeFloat_injective {x y : Float} (h : writeFloat x = writeFloat y) : x = y := by
  have hsignless : ∀ {x y : Float}, x.isInf = true → y.isInf = true →
      Decimal.isNegative x = Decimal.isNegative y → x = y := fun h h' hsign =>
    Decimal.eq_of_sign_and_rest hsign (by rw [Decimal.rest_of_isInf h, Decimal.rest_of_isInf h'])
  have hnames : ("NaN" : String) ≠ "Infinity" ∧ ("NaN" : String) ≠ "-Infinity" ∧
      ("Infinity" : String) ≠ "-Infinity" := by decide
  have hletter : ∀ {z : Float} {w : String}, z.isNaN = false → z.isInf = false →
      'N' ∈ w.toList ∨ 'I' ∈ w.toList → w ≠ Decimal.floatText z := by
    intro z w hnumber hfinite hmember
    rcases hmember with hmember | hmember <;> exact ne_floatText hnumber hfinite hmember (by simp [Decimal.IsNumeral])
  rcases writeFloat_cases x with ⟨hnumber, htext⟩ | ⟨hinfinite, hsign, htext⟩ | ⟨hinfinite, hsign, htext⟩ |
      ⟨hnumber, hfinite, htext⟩ <;>
    rcases writeFloat_cases y with ⟨hnumber', htext'⟩ | ⟨hinfinite', hsign', htext'⟩ | ⟨hinfinite', hsign', htext'⟩ |
      ⟨hnumber', hfinite', htext'⟩ <;>
    rw [htext, htext'] at h
  · exact Decimal.eq_of_isNaN hnumber hnumber'
  · exact absurd h hnames.2.1
  · exact absurd h hnames.1
  · exact absurd h (hletter hnumber' hfinite' (.inl (by decide)))
  · exact absurd h.symm hnames.2.1
  · exact hsignless hinfinite hinfinite' (hsign.trans hsign'.symm)
  · exact absurd h.symm hnames.2.2
  · exact absurd h (hletter hnumber' hfinite' (.inr (by decide)))
  · exact absurd h.symm hnames.1
  · exact absurd h hnames.2.2
  · exact hsignless hinfinite hinfinite' (hsign.trans hsign'.symm)
  · exact absurd h (hletter hnumber' hfinite' (.inr (by decide)))
  · exact absurd h.symm (hletter hnumber hfinite (.inl (by decide)))
  · exact absurd h.symm (hletter hnumber hfinite (.inr (by decide)))
  · exact absurd h.symm (hletter hnumber hfinite (.inr (by decide)))
  · exact Decimal.floatText_injective hnumber hfinite hnumber' hfinite' h

/-! ## Values -/

/-- The character that opens a value, if it is a string, a list or an object. -/
def opening : Json → Option Char
  | .str _ => some '"'
  | .arr _ => some '['
  | .obj _ => some '\x7b'
  | _ => none

/-- A value that nothing opens is written without stops. -/
theorem write_clear (sep : Separators) {j : Json} (hbare : j.opening = none) :
    ∀ c ∈ j.write sep, isStop c = false := by
  cases j with
  | null => exact clear_of_all rfl
  | bool b => cases b <;> exact clear_of_all rfl
  | int n => exact fun c h => isStop_of_isNumeral (intText_whole n c h).isNumeral
  | float x => exact writeFloat_clear x
  | str s => cases hbare
  | arr items => cases hbare
  | obj members => cases hbare

/-- The first characters of values that nothing opens. -/
def IsBare (c : Char) : Prop := Decimal.IsNumeral c ∨ c = 'n' ∨ c = 't' ∨ c = 'f' ∨ c = 'N' ∨ c = 'I'

/-- The first character of a value tells what opens it. -/
theorem write_cons (sep : Separators) (j : Json) :
    ∃ c rest, j.write sep = c :: rest ∧ (j.opening = some c ∨ j.opening = none ∧ IsBare c) := by
  cases j with
  | null => exact ⟨'n', ['u', 'l', 'l'], rfl, .inr ⟨rfl, .inr (.inl rfl)⟩⟩
  | bool b =>
    cases b
    · exact ⟨'f', ['a', 'l', 's', 'e'], rfl, .inr ⟨rfl, .inr (.inr (.inr (.inl rfl)))⟩⟩
    · exact ⟨'t', ['r', 'u', 'e'], rfl, .inr ⟨rfl, .inr (.inr (.inl rfl))⟩⟩
  | int n =>
    obtain ⟨c, rest, htext⟩ := intText_cons n
    refine ⟨c, rest, htext, .inr ⟨rfl, .inl ?_⟩⟩
    exact (intText_whole n c (htext ▸ List.mem_cons_self)).isNumeral
  | float x =>
    rcases writeFloat_cases x with ⟨-, htext⟩ | ⟨-, -, htext⟩ | ⟨-, -, htext⟩ | ⟨hnumber, hfinite, htext⟩
    · exact ⟨'N', ['a', 'N'], by rw [write, htext]; rfl, .inr ⟨rfl, .inr (.inr (.inr (.inr (.inl rfl))))⟩⟩
    · exact ⟨'-', "Infinity".toList, by rw [write, htext]; rfl,
        .inr ⟨rfl, .inl (.inr (.inr (.inr (.inl rfl))))⟩⟩
    · exact ⟨'I', "nfinity".toList, by rw [write, htext]; rfl,
        .inr ⟨rfl, .inr (.inr (.inr (.inr (.inr rfl))))⟩⟩
    · obtain ⟨c, hmember, -⟩ := (floatText_numeral hnumber hfinite).2
      obtain ⟨d, rest, hsame⟩ := List.exists_cons_of_ne_nil (List.ne_nil_of_mem hmember)
      refine ⟨d, rest, by rw [write, htext, hsame], .inr ⟨rfl, .inl ?_⟩⟩
      exact (floatText_numeral hnumber hfinite).1 d (hsame ▸ List.mem_cons_self)
  | str s => exact ⟨'"', s.toList.flatMap writeChar ++ ['"'], rfl, .inl rfl⟩
  | arr items => exact ⟨'[', writeItems sep items ++ [']'], rfl, .inl rfl⟩
  | obj members => exact ⟨'\x7b', writeMembers sep members ++ ['\x7d'], rfl, .inl rfl⟩

/-- The lower-case names are not the texts of numbers. -/
theorem name_ne {w : String} (hname : w ∈ ["null", "true", "false"]) :
    (∀ n : ℤ, w.toList ≠ (Decimal.intText n).toList) ∧ ∀ x : Float, w ≠ writeFloat x := by
  have hletter : ∃ c ∈ w.toList, ¬Decimal.IsNumeral c := by
    have hrun : w = "null" ∨ w = "true" ∨ w = "false" := by simpa using hname
    rcases hrun with rfl | rfl | rfl
    · exact ⟨'n', by decide, by simp [Decimal.IsNumeral]⟩
    · exact ⟨'t', by decide, by simp [Decimal.IsNumeral]⟩
    · exact ⟨'f', by decide, by simp [Decimal.IsNumeral]⟩
  obtain ⟨c, hmember, hletter⟩ := hletter
  refine ⟨?_, ?_⟩
  · intro n hsame
    exact hletter (intText_whole n c (hsame ▸ hmember)).isNumeral
  · rintro x rfl
    rcases writeFloat_cases x with ⟨-, htext⟩ | ⟨-, -, htext⟩ | ⟨-, -, htext⟩ | ⟨hnumber, hfinite, htext⟩
    · rw [htext] at hname
      exact absurd hname (by decide)
    · rw [htext] at hname
      exact absurd hname (by decide)
    · rw [htext] at hname
      exact absurd hname (by decide)
    · exact ne_floatText hnumber hfinite hmember hletter htext

theorem intText_ne_writeFloat (n : ℤ) (x : Float) : (Decimal.intText n).toList ≠ (writeFloat x).toList := by
  intro hsame
  obtain ⟨c, hmember, hother⟩ := writeFloat_not_whole x
  exact hother (intText_whole n c (hsame ▸ hmember))

/-- The name that writes a value, if one does. -/
def name? : Json → Option String
  | .null => some "null"
  | .bool b => some (if b then "true" else "false")
  | _ => none

theorem write_of_name? (sep : Separators) {j : Json} {w : String} (h : j.name? = some w) :
    w ∈ ["null", "true", "false"] ∧ j.write sep = w.toList := by
  cases j with
  | null =>
    cases h
    exact ⟨by decide, rfl⟩
  | bool b =>
    cases b <;> cases h <;> exact ⟨by decide, rfl⟩
  | _ => cases h

theorem eq_of_name? {j j' : Json} {w : String} (h : j.name? = some w) (h' : j'.name? = some w) : j = j' := by
  cases j with
  | null =>
    cases h
    cases j' with
    | null => rfl
    | bool b => cases b <;> exact absurd (Option.some.inj h') (by decide)
    | _ => cases h'
  | bool b =>
    cases h
    cases j' with
    | null => cases b <;> exact absurd (Option.some.inj h') (by decide)
    | bool b' =>
      cases b <;> cases b'
      · rfl
      · exact absurd (Option.some.inj h') (by decide)
      · exact absurd (Option.some.inj h') (by decide)
      · rfl
    | _ => cases h'
  | _ => cases h

/-- A value that nothing opens has a name or is a number. -/
theorem bare_cases {j : Json} (hbare : j.opening = none) :
    (∃ w, j.name? = some w) ∨ (∃ n, j = .int n) ∨ ∃ x, j = .float x := by
  cases j with
  | null => exact .inl ⟨_, rfl⟩
  | bool b => exact .inl ⟨_, rfl⟩
  | int n => exact .inr (.inl ⟨n, rfl⟩)
  | float x => exact .inr (.inr ⟨x, rfl⟩)
  | str s => cases hbare
  | arr items => cases hbare
  | obj members => cases hbare

theorem write_name_ne (sep : Separators) {j : Json} {w : String} (h : j.name? = some w) :
    (∀ n : ℤ, j.write sep ≠ (Json.int n).write sep) ∧ ∀ x : Float, j.write sep ≠ (Json.float x).write sep := by
  obtain ⟨hname, htext⟩ := write_of_name? sep h
  rw [htext]
  exact ⟨(name_ne hname).1, fun x hsame => (name_ne hname).2 x (String.toList_inj.mp hsame)⟩

/-- A value that nothing opens is known from its text. -/
theorem write_bare_injective (sep : Separators) {j j' : Json} (hbare : j.opening = none)
    (hbare' : j'.opening = none) (h : j.write sep = j'.write sep) : j = j' := by
  rcases bare_cases hbare with ⟨w, hname⟩ | ⟨n, rfl⟩ | ⟨x, rfl⟩
  · rcases bare_cases hbare' with ⟨w', hname'⟩ | ⟨n', rfl⟩ | ⟨x', rfl⟩
    · rw [(write_of_name? sep hname).2, (write_of_name? sep hname').2] at h
      exact eq_of_name? hname (String.toList_inj.mp h ▸ hname')
    · exact absurd h ((write_name_ne sep hname).1 n')
    · exact absurd h ((write_name_ne sep hname).2 x')
  · rcases bare_cases hbare' with ⟨w', hname'⟩ | ⟨n', rfl⟩ | ⟨x', rfl⟩
    · exact absurd h.symm ((write_name_ne sep hname').1 n)
    · rw [Decimal.intText_injective (String.toList_inj.mp h)]
    · exact absurd h (intText_ne_writeFloat n x')
  · rcases bare_cases hbare' with ⟨w', hname'⟩ | ⟨n', rfl⟩ | ⟨x', rfl⟩
    · exact absurd h.symm ((write_name_ne sep hname').2 x)
    · exact absurd h.symm (intText_ne_writeFloat n' x)
    · rw [writeFloat_injective (String.toList_inj.mp h)]

/-- Equal texts, with whatever follows, open with the same character. -/
theorem opening_eq (sep : Separators) {j j' : Json} {rest rest' : List Char}
    (h : j.write sep ++ rest = j'.write sep ++ rest') : j.opening = j'.opening := by
  have hdiffer : ∀ {c : Char}, IsBare c → c ≠ '"' ∧ c ≠ '[' ∧ c ≠ '\x7b' := by
    intro c hbare
    refine ⟨?_, ?_, ?_⟩ <;>
    · rintro rfl
      simp [IsBare, Decimal.IsNumeral] at hbare
  have hopened : ∀ {j : Json} {c : Char}, j.opening = some c → c = '"' ∨ c = '[' ∨ c = '\x7b' := by
    intro j c h
    cases j <;> simp [opening] at h <;> simp [← h]
  obtain ⟨c, cs, htext, hkind⟩ := write_cons sep j
  obtain ⟨d, ds, htext', hkind'⟩ := write_cons sep j'
  rw [htext, htext', List.cons_append, List.cons_append] at h
  have hsame : c = d := (List.cons.inj h).1
  subst hsame
  rcases hkind with hkind | ⟨hkind, hbare⟩ <;> rcases hkind' with hkind' | ⟨hkind', hbare'⟩
  · rw [hkind, hkind']
  · rcases hopened hkind with rfl | rfl | rfl
    · exact absurd rfl (hdiffer hbare').1
    · exact absurd rfl (hdiffer hbare').2.1
    · exact absurd rfl (hdiffer hbare').2.2
  · rcases hopened hkind' with rfl | rfl | rfl
    · exact absurd rfl (hdiffer hbare).1
    · exact absurd rfl (hdiffer hbare).2.1
    · exact absurd rfl (hdiffer hbare).2.2
  · rw [hkind, hkind']

/-- No value starts as what ends a list. -/
theorem write_ne_close (sep : Separators) (j : Json) (rest tail : List Char) :
    j.write sep ++ rest ≠ ']' :: tail := by
  intro h
  obtain ⟨c, cs, htext, hkind⟩ := write_cons sep j
  rw [htext, List.cons_append] at h
  have hsame : c = ']' := (List.cons.inj h).1
  subst hsame
  rcases hkind with hopened | ⟨-, hbare⟩
  · cases j <;> cases hopened
  · simp [IsBare, Decimal.IsNumeral] at hbare

/-- Items are separated by texts that start with a comma. -/
def Separators.Parts (sep : Separators) : Prop := ∃ cs, sep.item.toList = ',' :: cs

theorem compact_parts : compact.Parts := ⟨[], rfl⟩

/-- What follows the first item of a list up to its end. -/
def itemsAfter (sep : Separators) (items : List Json) : List Char :=
  match items with
  | [] => []
  | _ :: _ => sep.item.toList ++ writeItems sep items

/-- What follows the first member of an object up to its end. -/
def membersAfter (sep : Separators) (members : List (String × Json)) : List Char :=
  match members with
  | [] => []
  | _ :: _ => sep.item.toList ++ writeMembers sep members

theorem writeItems_cons (sep : Separators) (j : Json) (items : List Json) :
    writeItems sep (j :: items) = j.write sep ++ itemsAfter sep items := by
  cases items <;> rfl

theorem writeMembers_cons (sep : Separators) (k : String) (j : Json) (members : List (String × Json)) :
    writeMembers sep ((k, j) :: members) =
      writeText k ++ (sep.key.toList ++ (j.write sep ++ membersAfter sep members)) := by
  cases members <;> simp only [writeMembers, membersAfter, List.append_assoc]

theorem ended_itemsAfter {sep : Separators} (hparts : sep.Parts) (items : List Json) (rest : List Char) :
    Ended (itemsAfter sep items ++ ']' :: rest) := by
  obtain ⟨cs, hcomma⟩ := hparts
  cases items with
  | nil => exact ended_cons rfl
  | cons j items =>
    rw [itemsAfter, hcomma]
    exact ended_cons rfl

theorem ended_membersAfter {sep : Separators} (hparts : sep.Parts) (members : List (String × Json))
    (rest : List Char) : Ended (membersAfter sep members ++ '\x7d' :: rest) := by
  obtain ⟨cs, hcomma⟩ := hparts
  cases members with
  | nil => exact ended_cons rfl
  | cons m members =>
    rw [membersAfter, hcomma]
    exact ended_cons rfl

/-- Further items tell themselves if items do. -/
theorem itemsAfter_append_inj {sep : Separators} (hparts : sep.Parts) {items items' : List Json}
    {rest rest' : List Char}
    (hinner : writeItems sep items ++ ']' :: rest = writeItems sep items' ++ ']' :: rest' →
      items = items' ∧ rest = rest')
    (h : itemsAfter sep items ++ ']' :: rest = itemsAfter sep items' ++ ']' :: rest') :
    items = items' ∧ rest = rest' := by
  obtain ⟨cs, hcomma⟩ := hparts
  cases items with
  | nil =>
    cases items' with
    | nil => exact ⟨rfl, (List.cons.inj h).2⟩
    | cons j' items' =>
      rw [itemsAfter, itemsAfter, hcomma] at h
      exact absurd (List.cons.inj h).1 (by decide)
  | cons j items =>
    cases items' with
    | nil =>
      rw [itemsAfter, itemsAfter, hcomma] at h
      exact absurd (List.cons.inj h).1 (by decide)
    | cons j' items' =>
      rw [itemsAfter, itemsAfter, List.append_assoc, List.append_assoc] at h
      exact hinner (List.append_cancel_left h)

/-- Further members tell themselves if members do. -/
theorem membersAfter_append_inj {sep : Separators} (hparts : sep.Parts)
    {members members' : List (String × Json)} {rest rest' : List Char}
    (hinner : writeMembers sep members ++ '\x7d' :: rest = writeMembers sep members' ++ '\x7d' :: rest' →
      members = members' ∧ rest = rest')
    (h : membersAfter sep members ++ '\x7d' :: rest = membersAfter sep members' ++ '\x7d' :: rest') :
    members = members' ∧ rest = rest' := by
  obtain ⟨cs, hcomma⟩ := hparts
  cases members with
  | nil =>
    cases members' with
    | nil => exact ⟨rfl, (List.cons.inj h).2⟩
    | cons m' members' =>
      rw [membersAfter, membersAfter, hcomma] at h
      exact absurd (List.cons.inj h).1 (by decide)
  | cons m members =>
    cases members' with
    | nil =>
      rw [membersAfter, membersAfter, hcomma] at h
      exact absurd (List.cons.inj h).1 (by decide)
    | cons m' members' =>
      rw [membersAfter, membersAfter, List.append_assoc, List.append_assoc] at h
      exact hinner (List.append_cancel_left h)

mutual

/-- A written value tells itself and what follows it. -/
theorem write_append_inj {sep : Separators} (hparts : sep.Parts) (j : Json) : ∀ {j' : Json}
    {rest rest' : List Char}, Ended rest → Ended rest' → j.write sep ++ rest = j'.write sep ++ rest' →
      j = j' ∧ rest = rest' := by
  intro j' rest rest' hended hended' h
  have hopens := opening_eq sep h
  have hplain : ∀ {j : Json}, j.opening = none → j'.opening = none →
      j.write sep ++ rest = j'.write sep ++ rest' → j = j' ∧ rest = rest' := by
    intro j hbare hbare' h
    obtain ⟨htext, hsame⟩ := append_inj_of_stop (write_clear sep hbare) (write_clear sep hbare') hended hended' h
    exact ⟨write_bare_injective sep hbare hbare' htext, hsame⟩
  cases j with
  | null => exact hplain rfl hopens.symm h
  | bool b => exact hplain rfl hopens.symm h
  | int n => exact hplain rfl hopens.symm h
  | float x => exact hplain rfl hopens.symm h
  | str s =>
    cases j' with
    | str s' =>
      obtain ⟨rfl, hsame⟩ := writeText_append_inj h
      exact ⟨rfl, hsame⟩
    | _ => cases hopens
  | arr items =>
    cases j' with
    | arr items' =>
      simp only [write, List.cons_append, List.append_assoc, List.nil_append] at h
      obtain ⟨rfl, hsame⟩ := writeItems_append_inj hparts items (List.cons.inj h).2
      exact ⟨rfl, hsame⟩
    | _ => cases hopens
  | obj members =>
    cases j' with
    | obj members' =>
      simp only [write, List.cons_append, List.append_assoc, List.nil_append] at h
      obtain ⟨rfl, hsame⟩ := writeMembers_append_inj hparts members (List.cons.inj h).2
      exact ⟨rfl, hsame⟩
    | _ => cases hopens
termination_by structural j

/-- Written items up to the end of their list tell themselves and what follows the list. -/
theorem writeItems_append_inj {sep : Separators} (hparts : sep.Parts) (items : List Json) :
    ∀ {items' : List Json} {rest rest' : List Char},
      writeItems sep items ++ ']' :: rest = writeItems sep items' ++ ']' :: rest' →
      items = items' ∧ rest = rest' := by
  intro items' rest rest' h
  cases items with
  | nil =>
    cases items' with
    | nil => exact ⟨rfl, (List.cons.inj h).2⟩
    | cons j' items' =>
      rw [writeItems_cons, List.append_assoc] at h
      exact absurd h.symm (write_ne_close sep j' _ _)
  | cons j items =>
    cases items' with
    | nil =>
      rw [writeItems_cons, List.append_assoc] at h
      exact absurd h (write_ne_close sep j _ _)
    | cons j' items' =>
      rw [writeItems_cons, writeItems_cons, List.append_assoc, List.append_assoc] at h
      obtain ⟨rfl, hafter⟩ := write_append_inj hparts j (ended_itemsAfter hparts _ _) (ended_itemsAfter hparts _ _) h
      obtain ⟨rfl, hsame⟩ := itemsAfter_append_inj hparts (writeItems_append_inj hparts items) hafter
      exact ⟨rfl, hsame⟩
termination_by structural items

/-- Written members up to the end of their object tell themselves and what follows the object. -/
theorem writeMembers_append_inj {sep : Separators} (hparts : sep.Parts) (members : List (String × Json)) :
    ∀ {members' : List (String × Json)} {rest rest' : List Char},
      writeMembers sep members ++ '\x7d' :: rest = writeMembers sep members' ++ '\x7d' :: rest' →
      members = members' ∧ rest = rest' := by
  intro members' rest rest' h
  match members with
  | [] =>
    cases members' with
    | nil => exact ⟨rfl, (List.cons.inj h).2⟩
    | cons m' members' =>
      rw [writeMembers_cons, List.append_assoc, writeText_append] at h
      exact absurd (List.cons.inj h).1 (by decide)
  | (k, j) :: members =>
    cases members' with
    | nil =>
      rw [writeMembers_cons, List.append_assoc, writeText_append] at h
      exact absurd (List.cons.inj h).1 (by decide)
    | cons m' members' =>
      obtain ⟨k', j'⟩ := m'
      rw [writeMembers_cons, writeMembers_cons] at h
      simp only [List.append_assoc] at h
      obtain ⟨rfl, hvalue⟩ := writeText_append_inj h
      obtain ⟨rfl, hafter⟩ := write_append_inj hparts j (ended_membersAfter hparts _ _)
        (ended_membersAfter hparts _ _) (List.append_cancel_left hvalue)
      obtain ⟨rfl, hsame⟩ := membersAfter_append_inj hparts (writeMembers_append_inj hparts members) hafter
      exact ⟨rfl, hsame⟩
termination_by structural members

end

/-- A value is known from its text. -/
theorem write_injective {sep : Separators} (hparts : sep.Parts) {j j' : Json}
    (h : j.write sep = j'.write sep) : j = j' := by
  refine (write_append_inj hparts j ended_nil ended_nil ?_).1
  rw [List.append_nil, List.append_nil, h]

end AdhocReport.Json
