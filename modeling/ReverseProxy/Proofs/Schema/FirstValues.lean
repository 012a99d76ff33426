import ReverseProxy.Proofs.Schema.Entries

/-!
# The first value of each key

A key may be repeated, and then its first value counts. Here a node is asked for the keys that it
has and for what stands first under them, without the checks on the way to it.
-/

namespace ReverseProxy

open Kdl Schema

/-- Under distinct keys a look-up finds what is there. -/
theorem lookup_eq_some_iff {α : Type} {pairs : List (String × α)} {key : String} {value : α}
    (hnodup : (pairs.map Prod.fst).Nodup) :
    pairs.lookup key = some value ↔ (key, value) ∈ pairs := by
  induction pairs with
  | nil => simp
  | cons pair pairs ih =>
      obtain ⟨hnew, hothers⟩ := List.nodup_cons.mp hnodup
      rw [List.lookup_cons, List.mem_cons]
      by_cases hkey : key = pair.1
      · have habsent : (key, value) ∉ pairs := fun hmem =>
          hnew (hkey ▸ List.mem_map_of_mem (f := Prod.fst) hmem)
        simp [hkey, Prod.ext_iff, hkey ▸ habsent, eq_comm]
      · have hother : (key == pair.1) = false := beq_false_of_ne hkey
        simp only [hother, ih hothers, Prod.ext_iff, hkey, false_and, false_or]

namespace Kdl.Scalar

def text? : Scalar → Option String
  | .string text => some text
  | _ => none

def flag? : Scalar → Option Bool
  | .boolean flag => some flag
  | _ => none

@[simp]
theorem text?_string (text : String) : text? (.string text) = some text := rfl

@[simp]
theorem flag?_boolean (flag : Bool) : flag? (.boolean flag) = some flag := rfl

theorem kind_eq_string {value : Scalar} :
    value.kind = .string ↔ ∃ text, value = .string text := by
  cases value <;> simp [kind]

theorem kind_eq_boolean {value : Scalar} :
    value.kind = .boolean ↔ ∃ flag, value = .boolean flag := by
  cases value <;> simp [kind]

end Kdl.Scalar

namespace Kdl.Node

variable {node : Node} {key : String}

def HasKey (node : Node) (key : String) : Prop := ∃ entry ∈ node.entries, entry.key = some key

def text? (node : Node) (key : String) : Option String := (node.value? key).bind Scalar.text?

def flag? (node : Node) (key : String) : Option Bool := (node.value? key).bind Scalar.flag?

theorem find?_key_eq_none :
    node.entries.find? (fun entry => entry.key = some key) = none ↔ ¬node.HasKey key := by
  simp [HasKey]

theorem value?_eq_none : node.value? key = none ↔ ¬node.HasKey key := by
  rw [value?, Option.map_eq_none_iff, find?_key_eq_none]

/-- The first value of a key is one of its values. -/
theorem exists_entry_of_value? {value : Scalar} (hvalue : node.value? key = some value) :
    ∃ entry ∈ node.entries, entry.key = some key ∧ entry.value = value := by
  obtain ⟨entry, hfound, rfl⟩ := Option.map_eq_some_iff.mp hvalue
  exact ⟨entry, List.mem_of_find?_eq_some hfound, by simpa using List.find?_some hfound, rfl⟩

section Kinds

variable {α : Type} {write : α → Scalar} {read : Scalar → Option α}
  (hread : ∀ content, read (write content) = some content)

include hread

theorem bind_of_value? {found : Option α} (hvalue : node.value? key = found.map write) :
    (node.value? key).bind read = found := by
  cases found with
  | none => rw [hvalue, Option.map_none, Option.bind_none]
  | some content => rw [hvalue, Option.map_some, Option.bind_some, hread]

/-- If all values of a key are of one kind, the first one is. -/
theorem value?_eq_map (hkind : ∀ entry ∈ node.entries, entry.key = some key →
      ∃ content, entry.value = write content) :
    node.value? key = ((node.value? key).bind read).map write := by
  cases hvalue : node.value? key with
  | none => rfl
  | some value =>
      obtain ⟨entry, hentry, hkey, rfl⟩ := exists_entry_of_value? hvalue
      obtain ⟨content, hcontent⟩ := hkind entry hentry hkey
      rw [hcontent, Option.bind_some, hread, Option.map_some]

end Kinds

theorem text?_of_value? {text : Option String} (hvalue : node.value? key = text.map .string) :
    node.text? key = text :=
  bind_of_value? Scalar.text?_string hvalue

theorem flag?_of_value? {flag : Option Bool} (hvalue : node.value? key = flag.map .boolean) :
    node.flag? key = flag :=
  bind_of_value? Scalar.flag?_boolean hvalue

theorem value?_eq_text? (hstrings : ∀ entry ∈ node.entries, entry.key = some key →
      ∃ text, entry.value = .string text) :
    node.value? key = (node.text? key).map .string :=
  value?_eq_map Scalar.text?_string hstrings

theorem value?_eq_flag? (hflags : ∀ entry ∈ node.entries, entry.key = some key →
      ∃ flag, entry.value = .boolean flag) :
    node.value? key = (node.flag? key).map .boolean :=
  value?_eq_map Scalar.flag?_boolean hflags

theorem hasKey_iff_of_value? {α : Type} {value : Option α} {write : α → Scalar}
    (hvalue : node.value? key = value.map write) : node.HasKey key ↔ value.isSome = true := by
  rw [← not_iff_not, ← value?_eq_none, hvalue, Option.map_eq_none_iff,
    Option.not_isSome_iff_eq_none]

/-- Every named entry has one of the keys and a string. -/
def OnlyTexts (node : Node) (keys : List String) : Prop :=
  ∀ entry ∈ node.entries, ∀ key, entry.key = some key →
    key ∈ keys ∧ ∃ text, entry.value = .string text

/-- The rule for keys of strings, in terms of what the node says. -/
theorem onlyTexts_iff {keys : List String} (hnodup : keys.Nodup) :
    (∀ datum ∈ node.data, ∀ key ∈ datum.key,
        (keys.map fun key => (key, ScalarKind.string)).lookup key = some datum.value.kind) ↔
      node.OnlyTexts keys := by
  have hdistinct : ((keys.map fun key => (key, ScalarKind.string)).map Prod.fst).Nodup := by
    simpa [Function.comp_def] using hnodup
  simp only [lookup_eq_some_iff hdistinct, OnlyTexts, data, List.forall_mem_map,
    ← Scalar.kind_eq_string]
  simp [Entry.datum, eq_comm]

theorem OnlyTexts.value?_eq {keys : List String} (honly : node.OnlyTexts keys) :
    node.value? key = (node.text? key).map .string :=
  value?_eq_text? fun entry hentry hkey => (honly entry hentry key hkey).2

theorem OnlyTexts.value?_eq_iff {keys : List String} (honly : node.OnlyTexts keys)
    {text : Option String} :
    node.value? key = text.map .string ↔ text = node.text? key := by
  rw [honly.value?_eq, (Option.map_injective fun _ _ => Scalar.string.inj).eq_iff, eq_comm]

end Kdl.Node

def Kdl.Node.firstKeys (node : Node) : List String := (node.entries.filterMap Entry.key).eraseDups

theorem Kdl.Node.mem_firstKeys {node : Node} {key : String} :
    key ∈ node.firstKeys ↔ node.HasKey key := by
  simp [firstKeys, List.mem_eraseDups, HasKey]

namespace Schema.Focus

/-- The keys that are new among those of the entries, in the order in which they first come. -/
def newKeys (taken : List String) (entries : List Entry) : List String :=
  ((entries.filterMap Entry.key).filter fun key => key ∉ taken).eraseDups

def IsFirstText (entries : List Entry) (pair : String × String) : Prop :=
  ∃ entry, entries.find? (fun entry => entry.key = some pair.1) = some entry ∧
    entry.value.plainText = .ok (some pair.2)

theorem newKeys_skip {taken : List String} {entry : Entry} {entries : List Entry}
    (hold : ∀ key ∈ entry.key, key ∈ taken) :
    newKeys taken (entry :: entries) = newKeys taken entries := by
  unfold newKeys
  cases hkey : entry.key with
  | none => rw [List.filterMap_cons_none hkey]
  | some key =>
      rw [List.filterMap_cons_some hkey, List.filter_cons_of_neg (by simpa using hold key hkey)]

theorem newKeys_take {taken : List String} {entry : Entry} {entries : List Entry} {key : String}
    (hkey : entry.key = some key) (hnew : key ∉ taken) :
    newKeys taken (entry :: entries) = key :: newKeys (taken ++ [key]) entries := by
  unfold newKeys
  rw [List.filterMap_cons_some hkey, List.filter_cons_of_pos (by simpa using hnew),
    List.eraseDups_cons, List.filter_filter]
  congr 3
  funext other
  by_cases hother : other = key <;> simp [hother]

/-- The new keys are those of the entries that were not taken before. -/
theorem mem_newKeys {taken : List String} {entries : List Entry} {key : String} :
    key ∈ newKeys taken entries ↔ (∃ entry ∈ entries, entry.key = some key) ∧ key ∉ taken := by
  simp [newKeys, List.mem_eraseDups]

/-- The first value of a key that is still new is behind an entry whose key is not. -/
theorem isFirstText_skip {taken : List String} {entry : Entry} {entries : List Entry}
    (hold : ∀ key ∈ entry.key, key ∈ taken) {pair : String × String}
    (hnew : pair.1 ∈ newKeys taken entries) :
    IsFirstText (entry :: entries) pair ↔ IsFirstText entries pair := by
  have hother : entry.key ≠ some pair.1 := fun hsame => (mem_newKeys.mp hnew).2 (hold pair.1 hsame)
  rw [IsFirstText, List.find?_cons_of_neg (by simpa using hother)]
  rfl

theorem mem_taken {entry : Entry} {key : String} (hkey : entry.key = some key)
    (taken : List String) : ∀ own ∈ entry.key, own ∈ taken ++ [key] := by
  rintro own hown
  obtain rfl : key = own := Option.some.inj (hkey.symm.trans hown)
  exact List.mem_append_right taken List.mem_cons_self

theorem isFirstText_take {entry : Entry} {entries : List Entry} {pair : String × String}
    (hkey : entry.key = some pair.1) :
    IsFirstText (entry :: entries) pair ↔ entry.value.plainText = .ok (some pair.2) := by
  rw [IsFirstText, List.find?_cons_of_pos (by simpa using hkey)]
  simp

theorem collectTexts_skip {texts : Dictionary String} {entry : Entry} {entries : List Entry}
    (hold : ∀ key ∈ entry.key, key ∈ texts.keys) :
    collectTexts (entry :: entries) texts = collectTexts entries texts := by
  rw [collectTexts]
  cases hkey : entry.key with
  | none => rfl
  | some key => exact dif_neg (not_not.mpr (hold key hkey))

/-- A key that comes for the first time is read. -/
theorem collectTexts_take {texts : Dictionary String} {entry : Entry} {entries : List Entry}
    {key : String} (hkey : entry.key = some key) (hnew : key ∉ texts.keys) :
    collectTexts (entry :: entries) texts =
      entry.asText >>= fun text => collectTexts entries (texts.push key text hnew) := by
  rw [collectTexts, hkey]
  exact dif_pos hnew

/-- Every key that is new is collected with the text of its first value. -/
theorem collectTexts_eq_ok {entries : List Entry} {texts found : Dictionary String} :
    collectTexts entries texts = .ok found ↔
      ∃ pairs, found.entries = texts.entries ++ pairs ∧
        pairs.map Prod.fst = newKeys texts.keys entries ∧
        ∀ pair ∈ pairs, IsFirstText entries pair := by
  induction entries generalizing texts with
  | nil =>
      rw [collectTexts, Except.ok.injEq]
      constructor
      · rintro rfl
        exact ⟨[], (List.append_nil _).symm, rfl, List.forall_mem_nil _⟩
      · rintro ⟨pairs, hfound, hkeys, -⟩
        obtain rfl : pairs = [] := List.map_eq_nil_iff.mp hkeys
        exact Dictionary.eq_of_entries (by rw [hfound, List.append_nil])
  | cons entry entries ih =>
      -- An entry counts if it has a key, and one that is not taken yet.
      by_cases hold : ∀ key ∈ entry.key, key ∈ texts.keys
      · rw [collectTexts_skip hold, newKeys_skip hold, ih]
        refine exists_congr fun pairs => and_congr_right fun _ => and_congr_right fun hkeys => ?_
        exact forall₂_congr fun pair hpair =>
          (isFirstText_skip hold (hkeys ▸ List.mem_map_of_mem hpair)).symm
      · push Not at hold
        obtain ⟨key, hkey, hnew⟩ := hold
        have htaken := mem_taken hkey texts.keys
        rw [collectTexts_take hkey hnew, newKeys_take hkey hnew, bind_eq_ok]
        simp only [Entry.asText_eq_ok, ih, Dictionary.entries_push, Dictionary.keys_push]
        constructor
        · rintro ⟨text, htext, pairs, hfound, hkeys, hall⟩
          have hothers : ∀ pair ∈ pairs, IsFirstText (entry :: entries) pair := fun pair hpair =>
            (isFirstText_skip htaken (hkeys ▸ List.mem_map_of_mem hpair)).mpr (hall pair hpair)
          exact ⟨(key, text) :: pairs, by rw [hfound, List.append_assoc]; rfl,
            by rw [List.map_cons, hkeys],
            List.forall_mem_cons.mpr ⟨(isFirstText_take hkey).mpr htext, hothers⟩⟩
        · rintro ⟨_ | ⟨⟨first, text⟩, pairs⟩, hfound, hkeys, hall⟩
          · cases hkeys
          · obtain ⟨rfl, hkeys⟩ := List.cons.inj hkeys
            obtain ⟨hfirst, hall⟩ := List.forall_mem_cons.mp hall
            have hothers : ∀ pair ∈ pairs, IsFirstText entries pair := fun pair hpair =>
              (isFirstText_skip htaken (hkeys ▸ List.mem_map_of_mem hpair)).mp (hall pair hpair)
            exact ⟨text, (isFirstText_take hkey).mp hfirst, pairs,
              by rw [hfound, List.append_assoc]; rfl, hkeys, hothers⟩

/-- Texts are collected if the first value of each new key has one. -/
theorem exists_collectTexts {entries : List Entry} {texts : Dictionary String}
    (hall : ∀ key ∈ newKeys texts.keys entries, ∃ text, IsFirstText entries (key, text)) :
    ∃ found, collectTexts entries texts = .ok found := by
  induction entries generalizing texts with
  | nil => exact ⟨texts, rfl⟩
  | cons entry entries ih =>
      by_cases hold : ∀ key ∈ entry.key, key ∈ texts.keys
      · rw [collectTexts_skip hold]
        rw [newKeys_skip hold] at hall
        refine ih fun key hkey => ?_
        obtain ⟨text, htext⟩ := hall key hkey
        exact ⟨text, (isFirstText_skip hold hkey).mp htext⟩
      · push Not at hold
        obtain ⟨key, hkey, hnew⟩ := hold
        rw [newKeys_take hkey hnew] at hall
        obtain ⟨⟨text, htext⟩, hothers⟩ := List.forall_mem_cons.mp hall
        rw [collectTexts_take hkey hnew,
          Entry.asText_eq_ok.mpr ((isFirstText_take hkey).mp htext), ok_bind]
        refine ih fun other hother => ?_
        rw [Dictionary.keys_push] at hother
        obtain ⟨text, htext⟩ := hothers other hother
        exact ⟨text, (isFirstText_skip (mem_taken hkey texts.keys) hother).mp htext⟩

variable {node : Node} {texts : Dictionary String}

theorem texts_node : (Focus.node node).texts = collectTexts node.entries ∅ := by
  simp [Focus.texts, textsBetween, entries_node]

theorem newKeys_nil : newKeys [] node.entries = node.firstKeys := by
  simp [newKeys, Node.firstKeys]

/-- The first text of a key is that of the value the node first gives it. -/
theorem isFirstText_node {pair : String × String} :
    IsFirstText node.entries pair ↔
      ∃ value, node.value? pair.1 = some value ∧ value.plainText = .ok (some pair.2) := by
  simp [IsFirstText, Node.value?]

/-- The texts of a node have its keys in the order in which they first come, each with the text of
its first value. -/
theorem texts_eq_ok :
    (Focus.node node).texts = .ok texts ↔
      texts.keys = node.firstKeys ∧ ∀ pair ∈ texts.entries, ∃ value,
        node.value? pair.1 = some value ∧ value.plainText = .ok (some pair.2) := by
  rw [texts_node, collectTexts_eq_ok, ← newKeys_nil]
  simp only [← isFirstText_node]
  constructor
  · rintro ⟨pairs, hpairs, hkeys, hall⟩
    obtain rfl : texts.entries = pairs := hpairs
    exact ⟨hkeys, hall⟩
  · rintro ⟨hkeys, hall⟩
    exact ⟨texts.entries, rfl, hkeys, hall⟩

/-- A node has texts exactly if the first value of each of its keys has one. -/
theorem exists_texts_iff :
    (∃ texts, (Focus.node node).texts = .ok texts) ↔
      ∀ key, node.HasKey key → ∃ value text,
        node.value? key = some value ∧ value.plainText = .ok (some text) := by
  constructor
  · rintro ⟨texts, htexts⟩ key hkey
    obtain ⟨hkeys, hall⟩ := texts_eq_ok.mp htexts
    have hmem : key ∈ texts.keys := hkeys ▸ Node.mem_firstKeys.mpr hkey
    obtain ⟨pair, hpair, rfl⟩ := List.mem_map.mp hmem
    obtain ⟨value, hvalue, htext⟩ := hall pair hpair
    exact ⟨value, pair.2, hvalue, htext⟩
  · intro hall
    rw [texts_node]
    refine exists_collectTexts fun key hkey => ?_
    obtain ⟨value, text, hvalue, htext⟩ := hall key (mem_newKeys.mp hkey).1
    exact ⟨text, isFirstText_node.mpr ⟨value, hvalue, htext⟩⟩

/-! ### Texts behind an entry

The entries behind the first one of a node are looked at on their own. Each key says what its first
value among them is, and a key without any says nothing.
-/

/-- The text is that of the first value of the key, and there is none for a key that is absent. -/
def SaysFirst (entries : List Entry) (key : String) (text : Option String) : Prop :=
  Option.Rel (fun entry raw => entry.value.plainText = .ok (some raw))
    (entries.find? fun entry => entry.key = some key) text

section SaysFirst

variable {entry : Entry} {entries : List Entry} {key : String} {text other : Option String}

theorem saysFirst_some {raw : String} :
    SaysFirst entries key (some raw) ↔ IsFirstText entries (key, raw) := by
  rw [SaysFirst, IsFirstText]
  cases entries.find? fun entry => entry.key = some key <;> simp

theorem saysFirst_none :
    SaysFirst entries key none ↔ ∀ entry ∈ entries, entry.key ≠ some key := by
  have habsent : SaysFirst entries key none ↔
      entries.find? (fun entry => entry.key = some key) = none := by
    rw [SaysFirst]
    cases entries.find? fun entry => entry.key = some key <;> simp
  simpa using habsent

/-- A key says one thing. -/
theorem SaysFirst.unique (htext : SaysFirst entries key text)
    (hother : SaysFirst entries key other) : text = other := by
  unfold SaysFirst at htext hother
  cases hfound : entries.find? fun entry => entry.key = some key with
  | none =>
      rw [hfound] at htext hother
      cases htext
      cases hother
      rfl
  | some entry =>
      rw [hfound] at htext hother
      cases htext with
      | some htext =>
      cases hother with
      | some hother => exact Except.ok.inj (htext.symm.trans hother)

theorem saysFirst_cons_of_ne (hkey : entry.key ≠ some key) :
    SaysFirst (entry :: entries) key text ↔ SaysFirst entries key text := by
  rw [SaysFirst, List.find?_cons_of_neg (by simpa using hkey), SaysFirst]

theorem saysFirst_cons_of_eq (hkey : entry.key = some key) :
    SaysFirst (entry :: entries) key text ↔
      ∃ raw, text = some raw ∧ entry.value.plainText = .ok (some raw) := by
  rw [SaysFirst, List.find?_cons_of_pos (by simpa using hkey)]
  cases text <;> simp

end SaysFirst

/-- Texts that are collected say of each key what its first value is. -/
theorem saysFirst_of_collectTexts {entries : List Entry}
    (hread : collectTexts entries ∅ = .ok texts) (key : String) :
    SaysFirst entries key (texts.get? key) := by
  obtain ⟨pairs, hpairs, hkeys, hall⟩ := collectTexts_eq_ok.mp hread
  obtain rfl : texts.entries = pairs := hpairs
  cases hget : texts.get? key with
  | some raw => exact saysFirst_some.mpr (hall _ ((lookup_eq_some_iff texts.nodup).mp hget))
  | none =>
      refine saysFirst_none.mpr fun entry hentry hkey => ?_
      have hmem : key ∈ newKeys [] entries :=
        mem_newKeys.mpr ⟨⟨entry, hentry, hkey⟩, List.not_mem_nil⟩
      obtain ⟨pair, hpair, rfl⟩ := List.mem_map.mp (hkeys ▸ hmem)
      have hother := List.lookup_eq_none_iff.mp hget pair hpair
      simp at hother

theorem exists_collectTexts_of_saysFirst {entries : List Entry}
    (hall : ∀ entry ∈ entries, ∀ key ∈ entry.key, ∃ text, SaysFirst entries key text) :
    ∃ texts, collectTexts entries ∅ = .ok texts := by
  refine exists_collectTexts fun key hkey => ?_
  obtain ⟨⟨entry, hentry, hkey⟩, -⟩ := mem_newKeys.mp hkey
  obtain ⟨text, htext⟩ := hall entry hentry key hkey
  cases text with
  | none => exact absurd hkey (saysFirst_none.mp htext entry hentry)
  | some raw => exact ⟨raw, saysFirst_some.mp htext⟩

theorem mem_keys_of_collectTexts {entries : List Entry}
    (hread : collectTexts entries ∅ = .ok texts) {key : String} :
    key ∈ texts.keys ↔ ∃ entry ∈ entries, entry.key = some key := by
  obtain ⟨pairs, hpairs, hkeys, -⟩ := collectTexts_eq_ok.mp hread
  obtain rfl : texts.entries = pairs := hpairs
  rw [Dictionary.keys, hkeys, mem_newKeys]
  exact and_iff_left List.not_mem_nil

theorem textsBetween_eq_ok {start : Nat} :
    (Focus.node node).textsBetween start none = .ok texts ↔
      start ≤ node.entries.length ∧ collectTexts (node.entries.drop start) ∅ = .ok texts := by
  simp only [textsBetween, entries_node, ok_bind, Option.getD_none, Int.toNat_natCast,
    List.take_length]
  split
  · next hbounds => exact (and_iff_right (by omega)).symm
  · next hbounds =>
    exact iff_of_false (by simp [Focus.reject, Schema.reject]) fun hread => hbounds (by omega)

/-- The texts from an entry on are read if there are none of another key. -/
theorem allowedTexts_eq_ok (node : Node) (start : Nat) (allowed : List String)
    (texts : Dictionary String) :
    (Focus.node node).allowedTexts start none allowed = .ok texts ↔
      start ≤ node.entries.length ∧ collectTexts (node.entries.drop start) ∅ = .ok texts ∧
        ∀ entry ∈ node.entries.drop start, ∀ key ∈ entry.key, key ∈ allowed := by
  have hallowed (hread : collectTexts (node.entries.drop start) ∅ = .ok texts) :
      texts.keys.find? (fun key => !allowed.contains key) = none ↔
        ∀ entry ∈ node.entries.drop start, ∀ key ∈ entry.key, key ∈ allowed := by
    simp only [List.find?_eq_none, mem_keys_of_collectTexts hread]
    constructor
    · intro hall entry hentry key hkey
      simpa using hall key ⟨entry, hentry, hkey⟩
    · rintro hall key ⟨entry, hentry, hkey⟩
      simpa using hall entry hentry key hkey
  rw [allowedTexts, bind_eq_ok, ← and_assoc, ← textsBetween_eq_ok]
  constructor
  · rintro ⟨found, hfound, hread⟩
    split at hread
    · cases hread
    · next hnone =>
      cases hread
      exact ⟨hfound, (hallowed (textsBetween_eq_ok.mp hfound).2).mp hnone⟩
  · rintro ⟨hfound, hall⟩
    refine ⟨texts, hfound, ?_⟩
    rw [(hallowed (textsBetween_eq_ok.mp hfound).2).mpr hall]
    rfl

end Schema.Focus

/-- A property that is one of several choices, with a default. -/
theorem exists_choice_iff {α : Type} {type : TextType α} {name : α → String}
    (hchoice : ∀ {text value}, type.parse text = .ok value ↔ name value = text)
    {entry : Option Entry} {text : Option String}
    (htext : entry.map Entry.value = text.map .string) {value default : α} :
    (∃ found : Option α, entry.mapM (Entry.parseAs · type) = .ok found ∧
        value = found.getD default) ↔
      name value = text.getD (name default) := by
  cases entry with
  | none =>
      obtain rfl : text = none := by simpa using htext.symm
      have hsame : name value = name default ↔ value = default := by
        rw [← hchoice, hchoice.mpr rfl, Except.ok.injEq, eq_comm]
      simpa using hsame.symm
  | some entry =>
      obtain ⟨content, rfl, hvalue⟩ := Option.map_eq_some_iff.mp htext.symm
      have hparse (value : α) : entry.parseAs type = .ok value ↔ type.parse content = .ok value :=
        Entry.parseAs_of_string hvalue.symm
      simp [map_eq_ok, hparse, hchoice]

end ReverseProxy
