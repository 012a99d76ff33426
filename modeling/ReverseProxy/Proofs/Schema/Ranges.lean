import ReverseProxy.Proofs.Schema.FirstValues
import ReverseProxy.Proofs.Schema.PlainText

/-!
# The texts of some entries and the first value of a key

Both the texts of the entries in a range and the look-up of one key go by first occurrences, the one
within the range, the other within the node. Here they are compared: with each other over the whole
node, and between a node and its parts (`texts_agree_with_property`).
-/

namespace ReverseProxy

open Kdl Schema

/-- What is kept of the first occurrences is the first occurrences of what is kept. -/
theorem eraseDups_filter {α : Type} [BEq α] [LawfulBEq α] (keep : α → Bool) (values : List α) :
    (values.filter keep).eraseDups = values.eraseDups.filter keep := by
  match values with
  | [] => rfl
  | first :: rest =>
      have hrest := eraseDups_filter keep (rest.filter fun value => !value == first)
      rw [List.filter_filter] at hrest
      rw [List.eraseDups_cons]
      by_cases hkeep : keep first = true
      · rw [List.filter_cons_of_pos hkeep, List.filter_cons_of_pos hkeep, List.eraseDups_cons,
          List.filter_filter, ← hrest]
        simp only [Bool.and_comm]
      · rw [List.filter_cons_of_neg hkeep, List.filter_cons_of_neg hkeep, ← hrest]
        congr 1
        refine List.filter_congr fun value _ => ?_
        by_cases hvalue : value = first
        · simp [hvalue, hkeep]
        · simp [hvalue]
termination_by values.length
decreasing_by exact Nat.lt_succ_of_le (List.length_filter_le _ _)

namespace Kdl.Node

/-- The bounds are in order and within the entries; without an upper bound it is their number. -/
def HasRange (node : Node) (start : Int) (stop : Option Int) : Prop :=
  0 ≤ start ∧ start ≤ stop.getD node.entries.length ∧
    stop.getD node.entries.length ≤ node.entries.length

def between (node : Node) (start : Int) (stop : Option Int) : List Entry :=
  (node.entries.take (stop.getD node.entries.length).toNat).drop start.toNat

theorem mem_of_mem_between {node : Node} {start : Int} {stop : Option Int} {entry : Entry}
    (hentry : entry ∈ node.between start stop) : entry ∈ node.entries :=
  List.mem_of_mem_take (List.mem_of_mem_drop hentry)

/-- A node is cut in two at any of its entries. -/
theorem between_append (node : Node) (split : Int) :
    node.between 0 (some split) ++ node.between split none = node.entries := by
  simp [between]

end Kdl.Node

namespace Schema.Focus

variable {entries : List Entry} {texts found : Dictionary String}

/-- The keys of the entries in the order in which they first come, each with the text of its first
value. -/
structure IsTextsOf (entries : List Entry) (texts : Dictionary String) : Prop where
  keys : texts.keys = (entries.filterMap Entry.key).eraseDups
  first : ∀ pair ∈ texts.entries, IsFirstText entries pair

theorem newKeys_empty : newKeys [] entries = (entries.filterMap Entry.key).eraseDups := by
  simp [newKeys]

theorem newKeys_eq_filter (taken : List String) :
    newKeys taken entries = (newKeys [] entries).filter fun key => key ∉ taken := by
  rw [newKeys_empty, ← eraseDups_filter, newKeys]

/-- Texts are collected with their keys in the order in which these first come. -/
theorem collectTexts_iff_isTextsOf :
    collectTexts entries ∅ = .ok texts ↔ IsTextsOf entries texts := by
  rw [collectTexts_eq_ok]
  constructor
  · rintro ⟨pairs, hpairs, hkeys, hall⟩
    obtain rfl : texts.entries = pairs := hpairs
    exact ⟨hkeys.trans newKeys_empty, hall⟩
  · rintro ⟨hkeys, hall⟩
    exact ⟨texts.entries, rfl, hkeys.trans newKeys_empty.symm, hall⟩

/-- The texts of bounded entries are collected unless some key has null first. -/
theorem exists_isTextsOf_iff (hbounded : ∀ entry ∈ entries, entry.value.IsBounded) :
    (∃ texts, IsTextsOf entries texts) ↔
      ¬∃ key entry, entries.find? (fun entry => entry.key = some key) = some entry ∧
        entry.value = .null := by
  simp only [← collectTexts_iff_isTextsOf]
  constructor
  · rintro ⟨texts, hread⟩ ⟨key, entry, hfirst, hnull⟩
    have hkey : key ∈ texts.keys := (mem_keys_of_collectTexts hread).mpr
      ⟨entry, List.mem_of_find?_eq_some hfirst, by simpa using List.find?_some hfirst⟩
    obtain ⟨⟨_, text⟩, hpair, rfl⟩ := List.mem_map.mp hkey
    obtain ⟨other, hother, htext⟩ := (collectTexts_iff_isTextsOf.mp hread).first _ hpair
    obtain rfl : other = entry := Option.some.inj (hother.symm.trans hfirst)
    rw [hnull] at htext
    cases htext
  · intro hnone
    refine exists_collectTexts fun key hkey => ?_
    obtain ⟨⟨own, hown, hownKey⟩, -⟩ := mem_newKeys.mp hkey
    obtain ⟨entry, hfirst⟩ :
        ∃ entry, entries.find? (fun entry => entry.key = some key) = some entry :=
      Option.isSome_iff_exists.mp (List.find?_isSome.mpr ⟨own, hown, by simpa using hownKey⟩)
    have hvalue : entry.value ≠ .null := fun hnull => hnone ⟨key, entry, hfirst, hnull⟩
    obtain ⟨text, htext⟩ :=
      Scalar.exists_plainText (hbounded entry (List.mem_of_find?_eq_some hfirst)) hvalue
    exact ⟨text, entry, hfirst, htext⟩

/-- A problem with a text is a null. -/
theorem problem_of_collectTexts {problem : Problem} {span : Span}
    (hread : collectTexts entries texts = Schema.reject problem span) : problem = .nullText := by
  induction entries generalizing texts with
  | nil => cases hread
  | cons entry entries ih =>
      by_cases hold : ∀ key ∈ entry.key, key ∈ texts.keys
      · rw [collectTexts_skip hold] at hread
        exact ih hread
      · push Not at hold
        obtain ⟨key, hkey, hnew⟩ := hold
        rw [collectTexts_take hkey hnew] at hread
        cases htext : entry.asText with
        | ok text =>
            rw [htext] at hread
            exact ih hread
        | error failure =>
            rw [htext] at hread
            cases hread
            unfold Entry.asText at htext
            split at htext <;> cases htext
            rfl

theorem collectTexts_append (front back : List Entry) (texts : Dictionary String) :
    collectTexts (front ++ back) texts =
      collectTexts front texts >>= fun taken => collectTexts back taken := by
  induction front generalizing texts with
  | nil => rfl
  | cons entry front ih =>
      by_cases hold : ∀ key ∈ entry.key, key ∈ texts.keys
      · rw [List.cons_append, collectTexts_skip hold, collectTexts_skip hold, ih]
      · push Not at hold
        obtain ⟨key, hkey, hnew⟩ := hold
        rw [List.cons_append, collectTexts_take hkey hnew, collectTexts_take hkey hnew]
        cases entry.asText with
        | error failure => rfl
        | ok text => exact ih _

/-- Texts that were collected on their own join those that are there already, but for keys that
these have. -/
theorem collectTexts_behind {first second : Dictionary String}
    (hsecond : IsTextsOf entries second) :
    ∃ whole, collectTexts entries first = .ok whole ∧
      whole.entries = first.entries ++ second.entries.filter fun pair => pair.1 ∉ first.keys := by
  let added := second.entries.filter fun pair => pair.1 ∉ first.keys
  have hadded : added.map Prod.fst = newKeys first.keys entries := by
    have hkeys : newKeys [] entries = second.entries.map Prod.fst :=
      newKeys_empty.trans hsecond.keys.symm
    rw [newKeys_eq_filter, hkeys, List.filter_map]
    rfl
  have hnodup : ((first.entries ++ added).map Prod.fst).Nodup := by
    rw [List.map_append, List.nodup_append]
    refine ⟨first.nodup, second.nodup.sublist (List.filter_sublist.map Prod.fst), ?_⟩
    rintro key hfirst _ hmem rfl
    rw [hadded] at hmem
    exact (mem_newKeys.mp hmem).2 hfirst
  exact ⟨⟨first.entries ++ added, hnodup⟩, collectTexts_eq_ok.mpr ⟨added, rfl, hadded,
    fun pair hpair => hsecond.first pair (List.mem_of_mem_filter hpair)⟩, rfl⟩

variable {node : Node} {start : Int} {stop : Option Int}

theorem textsBetween_of_range (hrange : node.HasRange start stop) :
    (Focus.node node).textsBetween start stop = collectTexts (node.between start stop) ∅ := by
  rw [textsBetween, entries_node, ok_bind]
  exact if_pos hrange

theorem textsBetween_of_no_range (hrange : ¬node.HasRange start stop) :
    (Focus.node node).textsBetween start stop = Schema.reject .range node.span := by
  rw [textsBetween, entries_node, ok_bind]
  exact if_neg hrange

theorem textsBetween_iff :
    (Focus.node node).textsBetween start stop = .ok texts ↔
      node.HasRange start stop ∧ IsTextsOf (node.between start stop) texts := by
  by_cases hrange : node.HasRange start stop
  · rw [textsBetween_of_range hrange, collectTexts_iff_isTextsOf, and_iff_right hrange]
  · rw [textsBetween_of_no_range hrange]
    exact iff_of_false nofun fun htexts => hrange htexts.1

/-- A range is refused exactly if it is none of the node's. -/
theorem outOfRange_iff :
    (∃ problem span, (Focus.node node).textsBetween start stop = Schema.reject problem span ∧
      problem.message = "Range out of bounds") ↔ ¬node.HasRange start stop := by
  constructor
  · rintro ⟨problem, span, hread, hmessage⟩ hrange
    rw [textsBetween_of_range hrange] at hread
    rw [problem_of_collectTexts hread] at hmessage
    exact absurd hmessage (by decide)
  · intro hrange
    exact ⟨.range, node.span, textsBetween_of_no_range hrange, rfl⟩

theorem property?_eq_some {key : String} {entry : Entry} :
    (Focus.node node).property? key = .ok (some entry) ↔
      node.entries.find? (fun entry => entry.key = some key) = some entry := by
  rw [property?_node, Except.ok.injEq]

/-- The texts of all entries have the keys that the look-up of one key finds, and what it finds. -/
theorem texts_iff_property? (hread : (Focus.node node).texts = .ok texts) (key : String) :
    (key ∈ texts.keys ↔ ∃ entry, (Focus.node node).property? key = .ok (some entry)) ∧
      ∀ entry, (Focus.node node).property? key = .ok (some entry) →
        ∃ text, entry.asText = .ok text ∧ texts.get? key = some text := by
  rw [texts_node] at hread
  simp only [property?_eq_some]
  refine ⟨?_, fun entry hfirst => ?_⟩
  · rw [mem_keys_of_collectTexts hread, ← Option.isSome_iff_exists, List.find?_isSome]
    simp
  · have hsays := saysFirst_of_collectTexts hread key
    rw [SaysFirst, hfirst] at hsays
    cases hget : texts.get? key with
    | none =>
        rw [hget] at hsays
        cases hsays
    | some text =>
        rw [hget] at hsays
        cases hsays with
        | some htext => exact ⟨text, Entry.asText_eq_ok.mpr htext, rfl⟩

/-- Texts of the two parts of a node are the texts of the node, with those of the first part
counting. -/
theorem texts_of_parts {split : Int} {first second : Dictionary String}
    (hfirst : (Focus.node node).textsBetween 0 (some split) = .ok first)
    (hsecond : (Focus.node node).textsBetween split none = .ok second) :
    ∃ whole, (Focus.node node).texts = .ok whole ∧
      whole.entries = first.entries ++ second.entries.filter fun pair => pair.1 ∉ first.keys := by
  obtain ⟨-, hfirst⟩ := textsBetween_iff.mp hfirst
  obtain ⟨-, hsecond⟩ := textsBetween_iff.mp hsecond
  obtain ⟨whole, hwhole, hentries⟩ : ∃ whole,
      collectTexts (node.between split none) first = .ok whole ∧
        whole.entries = first.entries ++ second.entries.filter fun pair => pair.1 ∉ first.keys :=
    collectTexts_behind hsecond
  refine ⟨whole, ?_, hentries⟩
  rw [texts_node, ← node.between_append split, collectTexts_append,
    collectTexts_iff_isTextsOf.mpr hfirst, ok_bind, hwhole]

/-- **Texts of entries agree with the look-up of a key.** The texts of a range are refused as such
exactly if the bounds are out of order or outside, and within bounds exactly if the first value of a
key there is null; otherwise they are those of the first values. The texts of all entries have what
the look-up of each key finds, and they are those of a front part with those of the rest behind them
that have other keys. -/
theorem texts_agree_with_property (node : Node)
    (hbounded : ∀ entry ∈ node.entries, entry.value.IsBounded) :
    (∀ start stop,
      ((∃ problem span, (Focus.node node).textsBetween start stop = Schema.reject problem span ∧
          problem.message = "Range out of bounds") ↔ ¬node.HasRange start stop) ∧
      (node.HasRange start stop →
        ((¬∃ texts, (Focus.node node).textsBetween start stop = .ok texts) ↔
          ∃ key entry, (node.between start stop).find? (fun entry => entry.key = some key) =
            some entry ∧ entry.value = .null) ∧
        ∀ texts, (Focus.node node).textsBetween start stop = .ok texts →
          IsTextsOf (node.between start stop) texts)) ∧
    (∀ texts, (Focus.node node).texts = .ok texts → ∀ key,
      (key ∈ texts.keys ↔ ∃ entry, (Focus.node node).property? key = .ok (some entry)) ∧
      ∀ entry, (Focus.node node).property? key = .ok (some entry) →
        ∃ text, entry.asText = .ok text ∧ texts.get? key = some text) ∧
    ∀ split first second, (Focus.node node).textsBetween 0 (some split) = .ok first →
      (Focus.node node).textsBetween split none = .ok second →
        ∃ whole, (Focus.node node).texts = .ok whole ∧ whole.entries =
          first.entries ++ second.entries.filter fun pair => pair.1 ∉ first.keys := by
  refine ⟨fun start stop => ⟨outOfRange_iff, fun hrange => ⟨?_, fun texts hread => ?_⟩⟩,
    fun texts hread key => texts_iff_property? hread key,
    fun split first second hfirst hsecond => texts_of_parts hfirst hsecond⟩
  · have hslice : ∀ entry ∈ node.between start stop, entry.value.IsBounded :=
      fun entry hentry => hbounded entry (Node.mem_of_mem_between hentry)
    simp only [textsBetween_iff, and_iff_right hrange, exists_isTextsOf_iff hslice, not_not]
  · exact (textsBetween_iff.mp hread).2

/-- A null that is not the first value of its key counts in a range without the first one. -/
theorem texts_agree_with_property_repeated :
    let entry (key : String) (value : Scalar) : Entry := ⟨some key, value, ⟨0, 1⟩⟩
    let node : Node := ⟨"n", ⟨0, 1⟩, ⟨0, 1⟩, [entry "a" (.integer 5), entry "b" (.string "x"),
      entry "a" (.string "z"), entry "b" .null], none⟩
    (∀ entry ∈ node.entries, entry.value.IsBounded) ∧
      (¬∃ texts, (Focus.node node).textsBetween 3 none = .ok texts) ∧
      ∃ whole, (Focus.node node).texts = .ok whole ∧ whole.entries = [("a", "5"), ("b", "x")] ∧
        ∃ found, (Focus.node node).property? "b" = .ok (some found) ∧
          found.asText = .ok "x" ∧ whole.get? "b" = some "x" := by
  intro entry node
  have hbounded : ∀ entry ∈ node.entries, entry.value.IsBounded := by
    simp only [node, entry, List.forall_mem_cons]
    have hdigits : (Nat.repr 5).length ≤ Decimal.maxDigits := by decide
    exact ⟨hdigits, trivial, trivial, trivial, List.forall_mem_nil _⟩
  obtain ⟨hranges, hproperty, hsplit⟩ := texts_agree_with_property node hbounded
  have hrange : node.HasRange 3 none := ⟨by decide, by decide, by decide⟩
  have hnull := ((hranges 3 none).2 hrange).1.mpr ⟨"b", entry "b" .null, rfl, rfl⟩
  obtain ⟨whole, hwhole, hentries⟩ := hsplit 1 ⟨[("a", "5")], by decide⟩
    ⟨[("b", "x"), ("a", "z")], by decide⟩ rfl rfl
  obtain ⟨text, htext, hget⟩ := (hproperty whole hwhole "b").2 (entry "b" (.string "x")) rfl
  obtain rfl : "x" = text := Except.ok.inj htext
  exact ⟨hbounded, hnull, whole, hwhole, hentries, _, rfl, htext, hget⟩

end Schema.Focus

end ReverseProxy
