import Mathlib.Data.List.TakeWhile
import ReverseProxy.Kdl.Printer
import ReverseProxy.Proofs.Decimal.Digits
import ReverseProxy.Proofs.Kdl.Strings

/-!
# Values and entries as they are written

The ways in which the values and the entries of a document are written, and that the reader takes
each of them for what it stands for.
-/

namespace ReverseProxy.Kdl

open Decimal

theorem keyword?_eq_none {c : Char} {rest : List Char} (hmark : c ∉ ['t', 'f', 'n', '#']) :
    keyword? (c :: rest) = none := by
  have hne : ∀ word : String, word.toList.head? ∈ ['t', 'f', 'n', '#'].map some →
      String.ofList (c :: rest) ≠ word := by
    rintro word hhead rfl
    simp only [String.toList_ofList, List.head?_cons] at hhead
    obtain ⟨d, hd, hsame⟩ := List.mem_map.mp hhead
    cases hsame
    exact hmark hd
  unfold keyword?
  split <;> first
    | rfl
    | (next hword => exact absurd hword (hne _ (by decide)))

/-- What a token can be read as. -/
theorem interpret_cases {token : List Char} {start : Cursor} {value : Scalar}
    (hread : interpret token start = .ok value) :
    keyword? token = some value ∨ (∃ number, value = .integer number) ∨
      (∃ decimal, decimalToken? token = some decimal ∧ decimal.value = .ok value) ∨
      looksNumeric token = false ∧ value = .string (String.ofList token) := by
  unfold interpret at hread
  split at hread
  · next hkeyword =>
    cases hread
    exact .inl hkeyword
  · split at hread
    · split at hread
      · cases hread
        exact .inr (.inl ⟨_, rfl⟩)
      · cases hread
    · split at hread
      · next decimal hdecimal =>
        exact .inr (.inr (.inl ⟨decimal, hdecimal, mapError_eq_ok.mp hread⟩))
      · split at hread
        · cases hread
        · next hnumeric =>
          split at hread
          · cases hread
          · cases hread
            exact .inr (.inr (.inr ⟨Bool.eq_false_iff.mpr hnumeric, rfl⟩))

theorem DecimalToken.value_cases {decimal : DecimalToken} {value : Scalar}
    (hvalue : decimal.value = .ok value) : (∃ number, value = .integer number) ∨
      ∃ digits exponent,
        value = .float (Binary64.ofDecimal decimal.negative digits exponent) := by
  unfold DecimalToken.value at hvalue
  split at hvalue
  · obtain ⟨magnitude, -, ⟨⟩⟩ := bind_eq_ok.mp hvalue
    exact .inl ⟨_, rfl⟩
  · cases hvalue
    exact .inr ⟨_, _, rfl⟩

/-- Letters and underscores start neither a sign nor a number. -/
theorem not_numeric_of_isBareStart {c : Char} (hstart : isBareStart c = true) :
    c.isDigit = false ∧ Text.isDigit c = false ∧ c ∉ ['+', '-', '.', '0', '#'] := by
  have hletter : ['+', '-', '.', '0', '#'].any isBareStart = false := by decide
  have hascii : c.toNat < 0x80 := by
    unfold isBareStart Char.isAlpha Char.isUpper Char.isLower at hstart
    simp only [Bool.or_eq_true, Bool.and_eq_true, decide_eq_true_eq] at hstart
    rcases hstart with (⟨-, hupper⟩ | ⟨-, hlower⟩) | rfl
    · exact Nat.lt_of_le_of_lt (UInt32.le_iff_toNat_le.mp hupper) (by decide)
    · exact Nat.lt_of_le_of_lt (UInt32.le_iff_toNat_le.mp hlower) (by decide)
    · decide
  have hdigit : c.isDigit = false := by
    by_contra hdigit
    have hall : ∀ code < 0x80, isBareStart (Char.ofNat code) = true →
        (Char.ofNat code).isDigit = false := by decide
    have := hall c.toNat hascii
    rw [Char.ofNat_toNat] at this
    exact hdigit (this hstart)
  refine ⟨hdigit, by simp [Text.isDigit, hascii, hdigit], fun hmem => ?_⟩
  exact List.any_eq_false.mp hletter c hmem hstart

theorem splitSign_of_not_mem {c : Char} {rest : List Char} (hsign : c ∉ ['+', '-']) :
    splitSign (c :: rest) = (false, c :: rest) := by
  unfold splitSign
  split
  · next hplus =>
    cases hplus
    exact absurd (by decide) hsign
  · next hminus =>
    cases hminus
    exact absurd (by decide) hsign
  · rfl

/-- A token that starts like a bare name is a keyword or a string. -/
theorem interpret_bareStart {c : Char} {rest : List Char} (hstart : isBareStart c = true) :
    ∃ value, ∀ cursor, interpret (c :: rest) cursor = .ok value := by
  obtain ⟨hdigit, hany, hmark⟩ := not_numeric_of_isBareStart hstart
  simp only [List.mem_cons, List.not_mem_nil, or_false, not_or] at hmark
  obtain ⟨hplus, hminus, hpoint, hzero, hhash⟩ := hmark
  have hsign : splitSign (c :: rest) = (false, c :: rest) :=
    splitSign_of_not_mem (by simp [hplus, hminus])
  have hradix : radixToken? (c :: rest) = none := by
    unfold radixToken?
    rw [hsign]
    dsimp only
    split
    · next hmark => exact absurd (List.cons.inj hmark).1 hzero
    · rfl
  have hdecimal : decimalToken? (c :: rest) = none := by
    simp [decimalToken?, hsign, digitRun?, hdigit]
  have hnumeric : looksNumeric (c :: rest) = false := by
    simp [looksNumeric, hany, hplus, hminus, hpoint]
  cases hkeyword : keyword? (c :: rest) with
  | some value => exact ⟨value, fun cursor => by simp [interpret, hkeyword]⟩
  | none =>
      exact ⟨.string (String.ofList (c :: rest)), fun cursor => by
        simp [interpret, hkeyword, hradix, hdecimal, hnumeric, hhash]⟩

def signs : List (List Char × Bool) := [([], false), (['+'], false), (['-'], true)]

theorem mem_signs {sign : List Char} {negative : Bool} :
    (sign, negative) ∈ signs ↔ sign = [] ∧ negative = false ∨ sign = ['+'] ∧ negative = false ∨
      sign = ['-'] ∧ negative = true := by
  simp [signs]

theorem not_mem_of_isDigit {c : Char} {marks : List Char} (hdigit : c.isDigit = true)
    (hmarks : marks.any Char.isDigit = false) : c ∉ marks := fun hmem =>
  List.any_eq_false.mp hmarks c hmem hdigit

section Signed

variable {sign token run digits : List Char} {negative : Bool} {c : Char}

theorem keyword?_signed (hsign : (sign, negative) ∈ signs) (hdigit : c.isDigit = true)
    (rest : List Char) : keyword? (sign ++ c :: rest) = none := by
  obtain ⟨rfl, rfl⟩ | ⟨rfl, rfl⟩ | ⟨rfl, rfl⟩ := mem_signs.mp hsign
  · exact keyword?_eq_none (not_mem_of_isDigit hdigit (by decide))
  · exact keyword?_eq_none (by decide)
  · exact keyword?_eq_none (by decide)

theorem splitSign_signed (hsign : (sign, negative) ∈ signs) (hdigit : c.isDigit = true)
    (rest : List Char) : splitSign (sign ++ c :: rest) = (negative, c :: rest) := by
  obtain ⟨rfl, rfl⟩ | ⟨rfl, rfl⟩ | ⟨rfl, rfl⟩ := mem_signs.mp hsign
  · exact splitSign_of_not_mem (not_mem_of_isDigit hdigit (by decide))
  · rfl
  · rfl

/-- Underscores may stand anywhere in a run of digits but in front. -/
theorem digitRun?_eq_some_nil {isDigit : Char → Bool} (hunderscore : isDigit '_' = false) :
    digitRun? isDigit run = some (digits, []) ↔
      run ≠ [] ∧ run.head? ≠ some '_' ∧ (∀ c ∈ run, isDigit c = true ∨ c = '_') ∧
        run.filter (· ≠ '_') = digits := by
  cases run with
  | nil => simp [digitRun?]
  | cons c rest =>
      rw [digitRun?]
      split
      · next hdigit =>
        have hhead : c ≠ '_' := fun hc => by simp [hc, hunderscore] at hdigit
        have hrest : rest.dropWhile (fun d => isDigit d || d = '_') = [] ↔
            ∀ d ∈ rest, isDigit d = true ∨ d = '_' := by simp
        rw [List.forall_mem_cons]
        constructor
        · intro hrun
          obtain ⟨hdigits, hnil⟩ := Prod.mk.inj (Option.some.inj hrun)
          rw [List.takeWhile_eq_self_iff.mpr (List.dropWhile_eq_nil_iff.mp hnil)] at hdigits
          exact ⟨nofun, by simpa using hhead, ⟨.inl hdigit, hrest.mp hnil⟩, hdigits⟩
        · rintro ⟨-, -, ⟨-, hothers⟩, hdigits⟩
          have hnil := hrest.mpr hothers
          dsimp only
          rw [List.takeWhile_eq_self_iff.mpr (List.dropWhile_eq_nil_iff.mp hnil), hnil, hdigits]
      · next hdigit =>
        refine ⟨nofun, fun ⟨_, hhead, hall, _⟩ => ?_⟩
        rcases hall c List.mem_cons_self with hc | rfl
        · exact absurd hc hdigit
        · exact absurd rfl hhead

/-- A run of digits is read without its underscores. -/
theorem digitRun?_of_filter {isDigit : Char → Bool} (hunderscore : isDigit '_' = false)
    (hhead : run.head? ≠ some '_') (hne : run.filter (· ≠ '_') ≠ [])
    (hdigits : ∀ c ∈ run.filter (· ≠ '_'), isDigit c = true) :
    digitRun? isDigit run = some (run.filter (· ≠ '_'), []) := by
  refine (digitRun?_eq_some_nil hunderscore).mpr
    ⟨fun hnil => hne (by rw [hnil]; rfl), hhead, fun c hc => ?_, rfl⟩
  by_cases hc' : c = '_'
  · exact .inr hc'
  · exact .inl (hdigits c (List.mem_filter.mpr ⟨hc, by simpa using hc'⟩))

theorem digitRun?_of_all (hne : digits ≠ []) (hdigits : ∀ c ∈ digits, c.isDigit = true) :
    digitRun? Char.isDigit digits = some (digits, []) := by
  have hplain : ∀ c ∈ digits, c ≠ '_' := fun c hc => by
    rintro rfl
    exact absurd (hdigits _ hc) (by decide)
  have hfilter : digits.filter (· ≠ '_') = digits :=
    List.filter_eq_self.mpr fun c hc => by simpa using hplain c hc
  have hhead : digits.head? ≠ some '_' := fun hhead => hplain _ (List.mem_of_head? hhead) rfl
  have hrun : digitRun? Char.isDigit digits = some (digits.filter (· ≠ '_'), []) :=
    digitRun?_of_filter rfl hhead (by rwa [hfilter]) (by rwa [hfilter])
  rwa [hfilter] at hrun

theorem radixToken?_of_run (hsign : splitSign token = (negative, run))
    (hrun : ∀ c ∈ run, c.isDigit = true ∨ c = '_') : radixToken? token = none := by
  unfold radixToken?
  rw [hsign]
  dsimp only
  split
  · next mark rest =>
    have hmark : mark.isDigit = true ∨ mark = '_' := hrun mark (by simp)
    have hnone : radixOfMark? mark = none := by
      unfold radixOfMark?
      split <;> first
        | rfl
        | exact absurd hmark (by decide)
    rw [hnone]
  · rfl

theorem decimalToken?_of_run (hsign : splitSign token = (negative, run))
    (hrun : digitRun? Char.isDigit run = some (digits, [])) :
    decimalToken? token = some ⟨negative, digits, none, none⟩ := by
  simp [decimalToken?, hsign, hrun, fractionPart?, exponentPart?]

/-- Digits with underscores and a sign, and with no mark, are an integer in base ten. -/
theorem interpret_run (hsign : (sign, negative) ∈ signs)
    (hrun : digitRun? Char.isDigit run = some (digits, [])) (hlimit : digits.length ≤ maxDigits)
    (start : Cursor) :
    interpret (sign ++ run) start = .ok (.integer (applySign negative (natOfDigits digits))) := by
  obtain ⟨hne, hhead, hall, -⟩ := (digitRun?_eq_some_nil rfl).mp hrun
  obtain ⟨c, rest, rfl⟩ := List.exists_cons_of_ne_nil hne
  have hdigit : c.isDigit = true :=
    (hall c List.mem_cons_self).resolve_right fun hc => hhead (congrArg some hc)
  have hsplit := splitSign_signed hsign hdigit rest
  have hread : readDigits digits = .ok (natOfDigits digits) := if_pos hlimit
  simp only [interpret, keyword?_signed hsign hdigit rest, radixToken?_of_run hsplit hall,
    decimalToken?_of_run hsplit hrun, DecimalToken.value, hread, ok_bind]
  rfl

end Signed

/-- The decimal text of an integer: a hyphen if it is negative, and the digits of its magnitude. -/
theorem toList_text (value : Int) :
    (Decimal.text value).toList =
      (if value < 0 then ['-'] else []) ++ Nat.toDigits 10 value.natAbs := by
  unfold Decimal.text
  split <;> simp

/-- An integer is read back from its decimal text, if that is within the limit. -/
theorem interpret_text {value : Int} (hlimit : (Nat.repr value.natAbs).length ≤ maxDigits)
    (cursor : Cursor) : interpret (Decimal.text value).toList cursor = .ok (.integer value) := by
  have hsign : (if value < 0 then ['-'] else [], decide (value < 0)) ∈ signs := by
    by_cases hneg : value < 0 <;> simp [hneg, mem_signs]
  have hrun : digitRun? Char.isDigit (Nat.toDigits 10 value.natAbs) =
      some (Nat.toDigits 10 value.natAbs, []) :=
    digitRun?_of_all Nat.toDigits_ne_nil fun c hc => isDigit_of_mem_decimal hc
  have hvalue : applySign (decide (value < 0)) value.natAbs = value := by
    by_cases hneg : value < 0
    · simp only [applySign, hneg, decide_true, if_true]
      omega
    · simp only [applySign, hneg, decide_false, Bool.false_eq_true, if_false]
      omega
  rw [← String.length_toList, Nat.toList_repr] at hlimit
  rw [toList_text, interpret_run hsign hrun hlimit, natOfDigits_toDigits, hvalue]

theorem isToken_text (value : Int) : IsToken (Decimal.text value).toList := by
  have hdigit {c : Char} (hc : c.isDigit = true) : isTokenChar c = true :=
    isTokenChar_of_isBareChar (by simp [isBareChar, Char.isAlphanum, hc])
  rw [toList_text]
  refine ⟨by simp, fun c hc => ?_⟩
  rcases List.mem_append.mp hc with hsign | hdigits
  · split at hsign
    · rw [List.mem_singleton.mp hsign]
      decide
    · cases hsign
  · exact hdigit (isDigit_of_mem_decimal hdigits)

inductive SpellsScalar : List Char → Scalar → Prop
  | quoted (text : String) : SpellsScalar (quoteChars text.toList) (.string text)
  | bare {token : List Char} {value : Scalar} (htoken : IsToken token)
      (hvalue : ∀ cursor, interpret token cursor = .ok value) : SpellsScalar token value

theorem spellsScalar_flag (value : Bool) :
    SpellsScalar (if value then "#true".toList else "#false".toList) (.boolean value) := by
  cases value
  · exact .bare (by decide) fun _ => rfl
  · exact .bare (by decide) fun _ => rfl

/-- What is printed for a scalar is one of its spellings, floats apart. -/
theorem spellsScalar_print {value : Scalar} (hvalue : value.isPrintable = true) :
    SpellsScalar value.print value := by
  cases value with
  | string text => exact .quoted text
  | integer value =>
      exact .bare (isToken_text value) (interpret_text (of_decide_eq_true hvalue))
  | float value => cases hvalue
  | boolean value =>
      cases value
      · exact spellsScalar_flag false
      · exact spellsScalar_flag true
  | null => exact .bare (by decide) fun _ => rfl

/-- What is written for a scalar could also be written for a name. -/
theorem SpellsScalar.exists_name {text : List Char} {value : Scalar}
    (hvalue : SpellsScalar text value) : ∃ name, SpellsName text name := by
  cases hvalue with
  | quoted text => exact ⟨text, .quoted text⟩
  | bare htoken => exact ⟨_, .bare htoken⟩

/-- A value is read from any of its spellings. -/
theorem readValue_spelled {text rest : List Char} {value : Scalar} {offset : Nat}
    (hvalue : SpellsScalar text value) (hstop : StopsWord rest) :
    readValue ⟨offset, text ++ rest⟩ = .ok (value, ⟨offset + text.length, rest⟩) := by
  obtain ⟨_, hname⟩ := hvalue.exists_name
  rw [readValue, skipType_content hname.head_content, ok_bind]
  cases hvalue with
  | quoted text =>
      simp only [stringStart?_quoteChars, readString_quoteChars, ok_bind, String.ofList_toList,
        pure_eq_ok]
  | bare htoken hvalue =>
      simp only [stringStart?_token htoken.2 hstop.endsWord,
        token_append htoken.2 hstop.endsWord]
      split
      · next hnil => exact absurd (Prod.mk.inj hnil).1 htoken.1
      · next htaken =>
        cases htaken
        rw [hvalue]
        rfl

/-- The ways in which an entry is written. -/
inductive SpellsDatum : List Char → Datum → Prop
  | positional {text : List Char} {value : Scalar} (hvalue : SpellsScalar text value) :
      SpellsDatum text ⟨none, value⟩
  | property {name text : List Char} {key : String} {value : Scalar} (hname : SpellsName name key)
      (hvalue : SpellsScalar text value) : SpellsDatum (name ++ '=' :: text) ⟨some key, value⟩

inductive SpellsData : List Char → List Datum → Prop
  | nil : SpellsData [] []
  | cons {text rest : List Char} {datum : Datum} {data : List Datum}
      (hdatum : SpellsDatum text datum) (hdata : SpellsData rest data) :
      SpellsData (' ' :: (text ++ rest)) (datum :: data)

/-- Entries behind entries. -/
theorem SpellsData.append {text other : List Char} {data more : List Datum}
    (hdata : SpellsData text data) (hmore : SpellsData other more) :
    SpellsData (text ++ other) (data ++ more) := by
  induction hdata with
  | nil => exact hmore
  | cons hdatum _ ih =>
      rw [List.cons_append, List.append_assoc, List.cons_append]
      exact .cons hdatum ih

theorem SpellsData.stopsEntry {text rest : List Char} {data : List Datum}
    (hdata : SpellsData text data) (hstop : StopsEntry rest) : StopsEntry (text ++ rest) := by
  cases hdata with
  | nil => exact hstop
  | cons => exact stopsEntry_cons _ (.inl rfl)

theorem SpellsDatum.head_content {text : List Char} {datum : Datum}
    (hdatum : SpellsDatum text datum) : ∃ c rest, text = c :: rest ∧ isContent c = true := by
  cases hdatum with
  | positional hvalue =>
      obtain ⟨_, hname⟩ := hvalue.exists_name
      exact hname.head_content
  | property hname _ =>
      obtain ⟨c, rest, hname, hcontent⟩ := hname.head_content
      exact ⟨c, rest ++ _, by rw [hname]; rfl, hcontent⟩

/-! The first word of an entry is read the same way, whatever it turns out to be. -/

theorem readEntry_quoted (offset : Nat) (text rest : List Char) :
    readEntry ⟨offset, quoteChars text ++ rest⟩ =
      finishEntry ⟨offset, quoteChars text ++ rest⟩ text ⟨offset + (quoteChars text).length, rest⟩
        (.ok (.string (String.ofList text))) := by
  have htype : skipType ⟨offset, quoteChars text ++ rest⟩ = .ok ⟨offset, quoteChars text ++ rest⟩ :=
    skipType_content ⟨'"', _, rfl, rfl⟩
  simp only [readEntry, htype, ok_bind, stringStart?_quoteChars, readString_quoteChars]

theorem readEntry_token {token rest : List Char} {offset : Nat} (htoken : IsToken token)
    (hstop : StopsWord rest) :
    readEntry ⟨offset, token ++ rest⟩ =
      finishEntry ⟨offset, token ++ rest⟩ token ⟨offset + token.length, rest⟩
        (interpret token ⟨offset, token ++ rest⟩) := by
  rw [readEntry, skipType_content htoken.head_content, ok_bind]
  simp only [stringStart?_token htoken.2 hstop.endsWord, token_append htoken.2 hstop.endsWord]
  split
  · next hnil => exact absurd (Prod.mk.inj hnil).1 htoken.1
  · next htaken =>
    cases htaken
    rfl

theorem finishEntry_positional {start : Cursor} {text rest : List Char} {offset : Nat}
    {value : Scalar} (hnext : rest.head? ≠ some '=') :
    finishEntry start text ⟨offset, rest⟩ (.ok value) =
      .ok (⟨none, value, start.spanTo ⟨offset, rest⟩⟩, ⟨offset, rest⟩) := by
  unfold finishEntry
  split
  · next hequals => exact absurd (congrArg List.head? hequals) hnext
  · rfl

theorem finishEntry_property {start : Cursor} {key text rest : List Char} {offset : Nat}
    {value : Scalar} {ignored : Reading Scalar} (hvalue : SpellsScalar text value)
    (hstop : StopsWord rest) :
    finishEntry start key ⟨offset, '=' :: (text ++ rest)⟩ ignored =
      .ok (⟨some (String.ofList key), value, start.spanTo ⟨offset + 1 + text.length, rest⟩⟩,
        ⟨offset + 1 + text.length, rest⟩) := by
  simp only [finishEntry, readValue_spelled hvalue hstop, ok_bind, pure_eq_ok]

/-- An entry as it is written is read, and no further than it goes. -/
theorem readEntry_spelled {text rest : List Char} {datum : Datum}
    (hdatum : SpellsDatum text datum) (hstop : StopsEntry rest) (offset : Nat) :
    ∃ entry, readEntry ⟨offset, text ++ rest⟩ = .ok (entry, ⟨offset + text.length, rest⟩) ∧
      entry.datum = datum := by
  have hword := hstop.stopsWord
  have hnext := hstop.head_ne
  cases hdatum with
  | positional hvalue =>
      cases hvalue with
      | quoted text =>
          rw [readEntry_quoted, finishEntry_positional hnext, String.ofList_toList]
          exact ⟨_, rfl, rfl⟩
      | bare htoken hvalue =>
          rw [readEntry_token htoken hword, hvalue, finishEntry_positional hnext]
          exact ⟨_, rfl, rfl⟩
  | @property name text key value hname hvalue =>
      have hequals : StopsWord ('=' :: (text ++ rest)) := stopsWord_cons _ (.inr (.inr rfl))
      have hlength : offset + (name ++ '=' :: text).length =
          offset + name.length + 1 + text.length := by
        simp only [List.length_append, List.length_cons]
        omega
      rw [hlength, List.append_assoc, List.cons_append]
      cases hname with
      | quoted =>
          rw [readEntry_quoted, finishEntry_property hvalue hword, String.ofList_toList]
          exact ⟨_, rfl, rfl⟩
      | bare htoken =>
          rw [readEntry_token htoken hequals, finishEntry_property hvalue hword]
          exact ⟨_, rfl, rfl⟩

/-- The entries of a node as they are written are read one by one, and then what follows them. -/
theorem tailFrom_spelled {read : BlockReader} {text rest : List Char} {data : List Datum}
    (hblock : read.Advances) (hdata : SpellsData text data) (hstop : StopsEntry rest)
    (offset finish : Nat) :
    ∃ entries last, entries.map Entry.datum = data ∧
      tailFrom read ⟨offset, text ++ rest⟩ finish = (do
        let (tail, stop) ← tailFrom read ⟨offset + text.length, rest⟩ last
        return ({ tail with entries := entries ++ tail.entries }, stop)) := by
  induction hdata generalizing offset finish with
  | nil =>
      refine ⟨[], finish, rfl, ?_⟩
      simp only [List.nil_append, List.length_nil, Nat.add_zero, pure_eq_ok]
      exact (bind_pure _).symm
  | @cons text others datum data hdatum hdata ih =>
      obtain ⟨entry, hentry, hsame⟩ :=
        readEntry_spelled hdatum (hdata.stopsEntry hstop) (offset + 1)
      obtain ⟨entries, last, hentries, htail⟩ :=
        ih (offset + 1 + text.length) (offset + 1 + text.length)
      obtain ⟨c, first, rfl, hcontent⟩ := hdatum.head_content
      refine ⟨entry :: entries, last, by rw [List.map_cons, hsame, hentries], ?_⟩
      have hlength : offset + (' ' :: (c :: first ++ others)).length =
          offset + 1 + (c :: first).length + others.length := by
        simp only [List.length_append, List.length_cons]
        omega
      rw [List.cons_append] at hentry
      rw [List.cons_append, List.append_assoc, List.cons_append,
        tailFrom_entry hblock hcontent hentry, htail, hlength]
      simp only [bind_assoc, pure_eq_ok, ok_bind, List.cons_append]

end ReverseProxy.Kdl
