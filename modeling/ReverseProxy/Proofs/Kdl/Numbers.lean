import ReverseProxy.Proofs.Schema.PlainText

/-!
# Spellings of numbers

An integer is spelled in four bases, with or without a sign and with underscores among its digits.
A token that spells one is read as that integer, and a token that starts like a number is never read
as text. Behind the mark of a base nothing is accepted but digits of the base; only base two takes
its mark once more (`integers_read_as_spelled`).
-/

namespace ReverseProxy.Kdl

open Decimal Text

def radixMarks : List (Char × Nat) := [('b', 2), ('o', 8), ('x', 16)]

def baseMarks : List (List Char × Nat) :=
  ([], 10) :: radixMarks.map fun (mark, base) => (['0', mark], base)

def AreDigits (base : Nat) (spelling : List Char) (digits : List Nat) : Prop :=
  List.Forall₂ (fun c digit => hexValue? c = some digit ∧ digit < base) spelling digits

/-- Digits of a base, with underscores anywhere but in front. -/
structure SpellsDigits (base : Nat) (run : List Char) (digits : List Nat) : Prop where
  start : run.head? ≠ some '_'
  nonempty : digits ≠ []
  spelled : AreDigits base (run.filter (· ≠ '_')) digits

/-- Binary digits behind one more mark of their base, with underscores anywhere but in front. -/
structure RepeatsMark (run : List Char) (digits : List Nat) : Prop where
  start : run.head? ≠ some '_'
  nonempty : digits ≠ []
  spelled : ∃ mark spelling, mark ∈ ['b', 'B'] ∧ run.filter (· ≠ '_') = '0' :: mark :: spelling ∧
    AreDigits 2 spelling digits

def IsForeign (base : Nat) (c : Char) : Prop :=
  c ≠ '_' ∧ ∀ digit, hexValue? c = some digit → base ≤ digit

inductive StartsNumber : List Char → Prop
  | digit {c : Char} (hdigit : Text.isDigit c = true) (rest : List Char) : StartsNumber (c :: rest)
  | marked {mark c : Char} (hmark : mark ∈ ['+', '-', '.']) (hdigit : Text.isDigit c = true)
      (rest : List Char) : StartsNumber (mark :: c :: rest)

section Digits

variable {base : Nat} {run spelling : List Char} {digits : List Nat} {c : Char}

/-- Digits have values exactly if there are some and all are below the base. -/
theorem digitValues?_eq_some :
    digitValues? base spelling = some digits ↔ digits ≠ [] ∧ AreDigits base spelling digits := by
  have hdigit (c : Char) (digit : Nat) : (hexValue? c).filter (· < base) = some digit ↔
      hexValue? c = some digit ∧ digit < base := by
    simp [Option.filter_eq_some_iff]
  unfold digitValues? AreDigits
  split
  · next hnil =>
    rw [hnil, List.forall₂_nil_left_iff]
    exact ⟨nofun, fun ⟨hne, hempty⟩ => absurd hempty hne⟩
  · next hne =>
    simp only [mapM_eq_some, hdigit]
    refine ⟨fun hall => ⟨?_, hall⟩, And.right⟩
    rintro rfl
    exact hne (List.forall₂_nil_right_iff.mp hall)

theorem AreDigits.exists_of_mem (hdigits : AreDigits base spelling digits) (hc : c ∈ spelling) :
    ∃ digit, hexValue? c = some digit ∧ digit < base := by
  induction hdigits with
  | nil => cases hc
  | cons hfirst _ ih =>
      rcases List.mem_cons.mp hc with rfl | hrest
      · exact ⟨_, hfirst⟩
      · exact ih hrest

theorem AreDigits.isSome (hdigits : AreDigits base spelling digits) :
    ∀ c ∈ spelling, (hexValue? c).isSome = true := fun _ hc =>
  let ⟨_, hdigit, _⟩ := hdigits.exists_of_mem hc
  Option.isSome_of_eq_some hdigit

theorem AreDigits.ne_nil (hdigits : AreDigits base spelling digits) (hne : digits ≠ []) :
    spelling ≠ [] := by
  rintro rfl
  exact hne (List.forall₂_nil_left_iff.mp hdigits)

theorem SpellsDigits.not_foreign (hspells : SpellsDigits base run digits) (hc : c ∈ run) :
    ¬IsForeign base c := fun ⟨hother, hforeign⟩ => by
  have hmem : c ∈ run.filter (· ≠ '_') := List.mem_filter.mpr ⟨hc, by simpa using hother⟩
  obtain ⟨digit, hdigit, hlt⟩ := hspells.spelled.exists_of_mem hmem
  exact absurd (hforeign digit hdigit) (by omega)

/-- The digits of base ten are those of decimal numbers, with the same values. -/
theorem hexValue?_lt_ten {digit : Nat} (hvalue : hexValue? c = some digit) (hlt : digit < 10) :
    c.isDigit = true ∧ digitValue c = digit := by
  unfold hexValue? at hvalue
  simp only [Char.le_def, UInt32.le_iff_toNat_le] at hvalue
  split at hvalue
  · next hdecimal =>
    cases hvalue
    refine ⟨?_, rfl⟩
    simpa [Char.isDigit, UInt32.le_iff_toNat_le] using hdecimal
  · exfalso
    split at hvalue
    · next hlower =>
      have hcode : 97 ≤ c.toNat := hlower.1
      cases hvalue
      omega
    · obtain ⟨⟨hupper, -⟩, ⟨⟩⟩ := Option.ite_none_right_eq_some.mp hvalue
      have hcode : 65 ≤ c.toNat := hupper
      omega

theorem AreDigits.decimal (hdigits : AreDigits 10 spelling digits) :
    (∀ c ∈ spelling, c.isDigit = true) ∧ spelling.map digitValue = digits := by
  induction hdigits with
  | nil => exact ⟨nofun, rfl⟩
  | cons hfirst _ ih =>
      obtain ⟨hdigit, hvalue⟩ := hexValue?_lt_ten hfirst.1 hfirst.2
      exact ⟨List.forall_mem_cons.mpr ⟨hdigit, ih.1⟩, by rw [List.map_cons, hvalue, ih.2]⟩

end Digits

def radixMagnitude? (base : Nat) (run : List Char) : Option Nat :=
  match digitRun? (fun c => (hexValue? c).isSome) run with
  | some (spelling, []) =>
      (digitValues? base (dropBinaryMark base spelling)).map (positional base)
  | _ => none

theorem hexValue?_binaryMark {mark : Char} (hmark : mark ∈ ['b', 'B']) :
    hexValue? mark = some 11 := by
  simp only [List.mem_cons, List.not_mem_nil, or_false] at hmark
  rcases hmark with rfl | rfl <;> rfl

/-- Nothing is dropped but the mark of base two behind that very mark. -/
theorem dropBinaryMark_cases (base : Nat) (spelling : List Char) :
    dropBinaryMark base spelling = spelling ∨
      base = 2 ∧ ∃ mark ∈ ['b', 'B'], spelling = '0' :: mark :: dropBinaryMark base spelling := by
  unfold dropBinaryMark
  split
  · split
    · next hmark => exact .inr ⟨hmark.1, _, by simpa using hmark.2, rfl⟩
    · exact .inl rfl
  · exact .inl rfl

theorem dropBinaryMark_of_areDigits {base : Nat} {spelling : List Char} {digits : List Nat}
    (hdigits : AreDigits base spelling digits) : dropBinaryMark base spelling = spelling := by
  rcases dropBinaryMark_cases base spelling with hsame | ⟨rfl, mark, hmark, hspelling⟩
  · exact hsame
  · have hmem : mark ∈ spelling := by
      rw [hspelling]
      simp
    obtain ⟨digit, hdigit, hlt⟩ := hdigits.exists_of_mem hmem
    rw [hexValue?_binaryMark hmark] at hdigit
    cases hdigit
    exact absurd hlt (by decide)

theorem radixMagnitude?_of_values {base : Nat} {run : List Char} {digits : List Nat}
    (hstart : run.head? ≠ some '_') (hne : run.filter (· ≠ '_') ≠ [])
    (hhex : ∀ c ∈ run.filter (· ≠ '_'), (hexValue? c).isSome = true)
    (hdigits : digits ≠ [])
    (hspelled : AreDigits base (dropBinaryMark base (run.filter (· ≠ '_'))) digits) :
    radixMagnitude? base run = some (positional base digits) := by
  have hrun : digitRun? (fun c => (hexValue? c).isSome) run = some (run.filter (· ≠ '_'), []) :=
    digitRun?_of_filter rfl hstart hne hhex
  rw [radixMagnitude?, hrun]
  simp only [digitValues?_eq_some.mpr ⟨hdigits, hspelled⟩, Option.map_some]

/-- What is read behind a mark is a run of digits, or binary digits behind the mark once more. -/
theorem radixMagnitude?_eq_some {base magnitude : Nat} {run : List Char} :
    radixMagnitude? base run = some magnitude ↔
      ∃ digits, (SpellsDigits base run digits ∨ base = 2 ∧ RepeatsMark run digits) ∧
        positional base digits = magnitude := by
  have hunderscore : (hexValue? '_').isSome = false := rfl
  constructor
  · intro hmagnitude
    unfold radixMagnitude? at hmagnitude
    split at hmagnitude
    · next spelling hrun =>
      obtain ⟨-, hstart, -, hfilter⟩ := (digitRun?_eq_some_nil hunderscore).mp hrun
      obtain ⟨digits, hvalues, hvalue⟩ := Option.map_eq_some_iff.mp hmagnitude
      obtain ⟨hne, hspelled⟩ := digitValues?_eq_some.mp hvalues
      refine ⟨digits, ?_, hvalue⟩
      rcases dropBinaryMark_cases base spelling with hsame | ⟨rfl, mark, hmark, hspelling⟩
      · rw [hsame, ← hfilter] at hspelled
        exact .inl ⟨hstart, hne, hspelled⟩
      · rw [← hfilter] at hspelling
        exact .inr ⟨rfl, hstart, hne, mark, _, hmark, hspelling, hfilter ▸ hspelled⟩
    · cases hmagnitude
  · rintro ⟨digits, hspells | ⟨rfl, hrepeats⟩, rfl⟩
    · obtain ⟨hstart, hdigits, hspelled⟩ := hspells
      refine radixMagnitude?_of_values hstart (hspelled.ne_nil hdigits) hspelled.isSome hdigits ?_
      rwa [dropBinaryMark_of_areDigits hspelled]
    · obtain ⟨hstart, hdigits, mark, spelling, hmark, hfilter, hspelled⟩ := hrepeats
      refine radixMagnitude?_of_values hstart (by rw [hfilter]; nofun) ?_ hdigits ?_
      · have hzero : (hexValue? '0').isSome = true := rfl
        rw [hfilter, List.forall_mem_cons, List.forall_mem_cons]
        exact ⟨hzero, Option.isSome_of_eq_some (hexValue?_binaryMark hmark), hspelled.isSome⟩
      · have hdrop : dropBinaryMark 2 ('0' :: mark :: spelling) = spelling :=
          if_pos ⟨rfl, by simpa using hmark⟩
        rwa [hfilter, hdrop]

/-- Of what stands behind a mark with a foreign character, only a repeated mark is accepted. -/
theorem radixMagnitude?_of_foreign {base magnitude : Nat} {run : List Char}
    (hforeign : ∃ c ∈ run, IsForeign base c) :
    radixMagnitude? base run = some magnitude ↔
      ∃ digits, (base = 2 ∧ RepeatsMark run digits) ∧ positional base digits = magnitude := by
  obtain ⟨c, hc, hforeign⟩ := hforeign
  rw [radixMagnitude?_eq_some]
  refine exists_congr fun digits => and_congr_left fun _ => ?_
  exact or_iff_right fun hspells => hspells.not_foreign hc hforeign

theorem looksNumeric_of_startsNumber {token : List Char} (hstarts : StartsNumber token) :
    looksNumeric token = true := by
  cases hstarts with
  | digit hdigit => simp [looksNumeric, hdigit]
  | marked hmark hdigit =>
      simp only [List.mem_cons, List.not_mem_nil, or_false] at hmark
      obtain rfl | rfl | rfl := hmark <;> simp [looksNumeric, hdigit]

theorem keyword?_ne_string {token : List Char} {text : String} :
    keyword? token ≠ some (.string text) := by
  unfold keyword?
  split <;> nofun

/-- What starts like a number is a number or an error, never a string. -/
theorem StartsNumber.interpret_ne_string {token : List Char} (hstarts : StartsNumber token)
    (start : Cursor) (text : String) : interpret token start ≠ .ok (.string text) := by
  intro hread
  obtain hkeyword | ⟨_, ⟨⟩⟩ | ⟨decimal, -, hvalue⟩ | ⟨hnumeric, -⟩ := interpret_cases hread
  · exact keyword?_ne_string hkeyword
  · obtain ⟨_, ⟨⟩⟩ | ⟨_, _, ⟨⟩⟩ := decimal.value_cases hvalue
  · rw [looksNumeric_of_startsNumber hstarts] at hnumeric
    cases hnumeric

theorem mem_radixMarks {mark : Char} {base : Nat} :
    (mark, base) ∈ radixMarks ↔ mark = 'b' ∧ base = 2 ∨ mark = 'o' ∧ base = 8 ∨
      mark = 'x' ∧ base = 16 := by
  simp [radixMarks]

theorem radixOfMark?_of_mem {mark : Char} {base : Nat} (hmark : (mark, base) ∈ radixMarks) :
    radixOfMark? mark = some base := by
  obtain ⟨rfl, rfl⟩ | ⟨rfl, rfl⟩ | ⟨rfl, rfl⟩ := mem_radixMarks.mp hmark <;> rfl

/-- The zero before a mark is a run of its own, which no mark continues to a decimal number. -/
theorem decimalToken?_of_mark {token run : List Char} {negative : Bool} {mark : Char} {base : Nat}
    (hsplit : splitSign token = (negative, '0' :: mark :: run))
    (hmark : (mark, base) ∈ radixMarks) : decimalToken? token = none := by
  obtain ⟨rfl, rfl⟩ | ⟨rfl, rfl⟩ | ⟨rfl, rfl⟩ := mem_radixMarks.mp hmark <;>
    simp [decimalToken?, hsplit, digitRun?, fractionPart?, exponentPart?]

section Signed

variable {sign run : List Char} {negative : Bool} {digits : List Nat}

theorem startsNumber_signed {c : Char} (hsign : (sign, negative) ∈ signs)
    (hdigit : c.isDigit = true) (rest : List Char) : StartsNumber (sign ++ c :: rest) := by
  have hany := isDigit_of_ascii hdigit
  obtain ⟨rfl, rfl⟩ | ⟨rfl, rfl⟩ | ⟨rfl, rfl⟩ := mem_signs.mp hsign
  · exact .digit hany rest
  · exact .marked (by decide) hany rest
  · exact .marked (by decide) hany rest

/-- Behind the mark of a base there is a number, or the whole token is refused. -/
theorem interpret_radix {mark : Char} {base : Nat} (hsign : (sign, negative) ∈ signs)
    (hmark : (mark, base) ∈ radixMarks) (run : List Char) (start : Cursor) :
    interpret (sign ++ '0' :: mark :: run) start =
      match radixMagnitude? base run with
      | some magnitude => .ok (.integer (applySign negative magnitude))
      | none => refuse (.badNumber (String.ofList (sign ++ '0' :: mark :: run)))
          ⟨start.offset, (sign ++ '0' :: mark :: run).length⟩ := by
  have hzero : Char.isDigit '0' = true := rfl
  have hsplit := splitSign_signed hsign hzero (mark :: run)
  have hnumeric := looksNumeric_of_startsNumber (startsNumber_signed hsign hzero (mark :: run))
  have hbase := radixOfMark?_of_mem hmark
  have hdecimal := decimalToken?_of_mark hsplit hmark
  simp only [interpret, keyword?_signed hsign hzero, hdecimal, hnumeric, radixToken?, hsplit, hbase,
    radixMagnitude?]
  cases digitRun? (fun c => (hexValue? c).isSome) run with
  | none => rfl
  | some taken =>
      obtain ⟨spelling, rest⟩ := taken
      cases rest with
      | cons => rfl
      | nil =>
          simp only [RadixToken.value?]
          cases digitValues? base (dropBinaryMark base spelling) <;> rfl

/-- Decimal digits are read as the integer they spell, as long as they are not too many. -/
theorem interpret_decimal (hsign : (sign, negative) ∈ signs) (hspells : SpellsDigits 10 run digits)
    (hlimit : digits.length ≤ maxDigits) (start : Cursor) :
    interpret (sign ++ run) start = .ok (.integer (applySign negative (positional 10 digits))) := by
  obtain ⟨hstart, hne, hspelled⟩ := hspells
  obtain ⟨hdigits, hvalues⟩ := hspelled.decimal
  have hrun : digitRun? Char.isDigit run = some (run.filter (· ≠ '_'), []) :=
    digitRun?_of_filter rfl hstart (hspelled.ne_nil hne) hdigits
  have hlength : (run.filter (· ≠ '_')).length ≤ maxDigits := by
    rwa [← hvalues, List.length_map] at hlimit
  rw [interpret_run hsign hrun hlength, natOfDigits, hvalues]

/-- Digits of a base behind its mark are the number that they stand for. -/
theorem SpellsDigits.interpret {mark : List Char} {base : Nat}
    (hspells : SpellsDigits base run digits) (hsign : (sign, negative) ∈ signs)
    (hmark : (mark, base) ∈ baseMarks) (hlimit : base = 10 → digits.length ≤ maxDigits)
    (start : Cursor) : interpret (sign ++ mark ++ run) start =
      .ok (.integer (applySign negative (positional base digits))) := by
  rcases List.mem_cons.mp hmark with hten | hradix
  · cases hten
    rw [List.append_nil]
    exact interpret_decimal hsign hspells (hlimit rfl) start
  · obtain ⟨⟨mark, _⟩, hmark, ⟨⟩⟩ := List.mem_map.mp hradix
    have hvalue := radixMagnitude?_eq_some.mpr ⟨digits, .inl hspells, rfl⟩
    rw [List.append_assoc, List.cons_append, List.cons_append, List.nil_append,
      interpret_radix hsign hmark, hvalue]

end Signed

/-- **What a number token means.** Digits of a base behind its mark are read as the number that they
stand for. If another character stands behind a mark, the whole token is refused, unless base two
has its mark once more. No token that starts like a number is read as text. The text of an integer
is read as that integer. -/
theorem integers_read_as_spelled (start : Cursor) :
    (∀ sign negative mark base run digits, (sign, negative) ∈ signs → (mark, base) ∈ baseMarks →
      SpellsDigits base run digits → (base = 10 → digits.length ≤ maxDigits) →
      interpret (sign ++ mark ++ run) start =
        .ok (.integer (applySign negative (positional base digits)))) ∧
    (∀ sign negative mark base run, (sign, negative) ∈ signs → (mark, base) ∈ radixMarks →
      (∃ c ∈ run, IsForeign base c) →
      (∀ digits, base = 2 → RepeatsMark run digits →
        interpret (sign ++ '0' :: mark :: run) start =
          .ok (.integer (applySign negative (positional base digits)))) ∧
      ((¬∃ digits, base = 2 ∧ RepeatsMark run digits) →
        interpret (sign ++ '0' :: mark :: run) start =
          refuse (.badNumber (String.ofList (sign ++ '0' :: mark :: run)))
            ⟨start.offset, (sign ++ '0' :: mark :: run).length⟩)) ∧
    (∀ token text, StartsNumber token → interpret token start ≠ .ok (.string text)) ∧
    ∀ number : Int, (Nat.toDigits 10 number.natAbs).length ≤ maxDigits →
      ∃ text, (Scalar.integer number).plainText = .ok (some text) ∧
        interpret text.toList start = .ok (.integer number) := by
  refine ⟨fun sign negative mark base run digits hsign hmark hspells hlimit =>
      hspells.interpret hsign hmark hlimit start,
    fun sign negative mark base run hsign hmark hforeign => ⟨fun digits hbase hrepeats => ?_,
      fun hnone => ?_⟩,
    fun token text hstarts => hstarts.interpret_ne_string start text, fun number hlimit => ?_⟩
  · have hvalue := (radixMagnitude?_of_foreign hforeign).mpr ⟨digits, ⟨hbase, hrepeats⟩, rfl⟩
    rw [interpret_radix hsign hmark, hvalue]
  · have hvalue : radixMagnitude? base run = none := by
      refine Option.eq_none_iff_forall_ne_some.mpr fun magnitude hsome => hnone ?_
      obtain ⟨digits, hrepeats, -⟩ := (radixMagnitude?_of_foreign hforeign).mp hsome
      exact ⟨digits, hrepeats⟩
    rw [interpret_radix hsign hmark, hvalue]
  · have hwritten : (Nat.repr number.natAbs).length ≤ maxDigits := by
      rwa [← String.length_toList, Nat.toList_repr]
    refine ⟨Decimal.text number, ?_, interpret_text hwritten start⟩
    rw [Scalar.plainText, writeInt_eq_ok.mpr ⟨hwritten, rfl⟩]
    rfl

theorem integers_read_as_spelled_underscored :
    (SpellsDigits 16 ['F', '_', 'f', '_'] [15, 15] ∧
      interpret ['-', '0', 'x', 'F', '_', 'f', '_'] ⟨2, []⟩ = .ok (.integer (-255))) ∧
    ((∃ c ∈ ['1', '2'], IsForeign 2 c) ∧
      interpret ['0', 'b', '1', '2'] ⟨2, []⟩ = refuse (.badNumber "0b12") ⟨2, 4⟩) ∧
    (RepeatsMark ['0', 'b', '1'] [1] ∧
      interpret ['0', 'b', '0', 'b', '1'] ⟨2, []⟩ = .ok (.integer 1)) ∧
    (StartsNumber ['+', '1', 'x'] ∧
      interpret ['+', '1', 'x'] ⟨2, []⟩ ≠ .ok (.string "+1x")) ∧
    ∃ text, (Scalar.integer (-42)).plainText = .ok (some text) ∧
      interpret text.toList ⟨2, []⟩ = .ok (.integer (-42)) := by
  obtain ⟨hspelled, hmarked, hnumber, htext⟩ := integers_read_as_spelled ⟨2, []⟩
  have hdigits : SpellsDigits 16 ['F', '_', 'f', '_'] [15, 15] :=
    ⟨by decide, by decide, .cons (by decide) (.cons (by decide) .nil)⟩
  have hforeign : ∃ c ∈ ['1', '2'], IsForeign 2 c :=
    ⟨'2', by decide, by decide, by rintro digit ⟨⟩; decide⟩
  have hmark : ∃ c ∈ ['0', 'b', '1'], IsForeign 2 c :=
    ⟨'b', by decide, by decide, by rintro digit ⟨⟩; decide⟩
  have hrepeats : RepeatsMark ['0', 'b', '1'] [1] :=
    ⟨by decide, by decide, 'b', ['1'], by decide, rfl, .cons (by decide) .nil⟩
  have hnone : ¬∃ digits, 2 = 2 ∧ RepeatsMark ['1', '2'] digits := by
    rintro ⟨digits, -, -, -, mark, spelling, -, hfilter, -⟩
    cases hfilter
  have hstarts : StartsNumber ['+', '1', 'x'] := .marked (by decide) (by decide) _
  refine ⟨⟨hdigits, ?_⟩, ⟨hforeign, ?_⟩, ⟨hrepeats, ?_⟩, ⟨hstarts, hnumber _ _ hstarts⟩,
    htext (-42) (by decide)⟩
  · exact hspelled ['-'] true ['0', 'x'] 16 _ _ (by decide) (by decide) hdigits nofun
  · exact (hmarked [] false 'b' 2 _ (by decide) (by decide) hforeign).2 hnone
  · exact (hmarked [] false 'b' 2 _ (by decide) (by decide) hmark).1 _ rfl hrepeats

/-- A character that is no binary digit is not always refused behind the mark of base two. -/
theorem repeated_mark_is_read :
    (∃ c ∈ ['0', 'b', '1'], IsForeign 2 c) ∧
      interpret ['0', 'b', '0', 'b', '1'] ⟨2, []⟩ = .ok (.integer 1) ∧
      ∀ problem span, interpret ['0', 'b', '0', 'b', '1'] ⟨2, []⟩ ≠ refuse problem span := by
  have hread : interpret ['0', 'b', '0', 'b', '1'] ⟨2, []⟩ = .ok (.integer 1) := rfl
  refine ⟨⟨'b', by decide, by decide, by rintro digit ⟨⟩; decide⟩, hread, fun problem span => ?_⟩
  rw [hread]
  nofun

end ReverseProxy.Kdl
