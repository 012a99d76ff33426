import Mathlib.Data.List.TakeWhile
import ReverseProxy.Names.Ip
import ReverseProxy.Proofs.Decimal.Digits
import ReverseProxy.Proofs.Outcome
import ReverseProxy.Proofs.Text.Split

/-!
# IP addresses are read as they were written

Whatever the groups of zero that an address of version 6 leaves out and whatever its scope, its
written form is read as the address, and never as one of version 4.
-/

namespace ReverseProxy

namespace Ipv4

theorem octet?_toDigits (octet : Fin 256) : octet? (Nat.toDigits 10 octet.val) = some octet := by
  have hlength : (Nat.toDigits 10 octet.val).length ≤ 3 :=
    (Nat.length_toDigits_le_iff (by decide) (by decide)).mpr (by omega)
  have hdigits : (Nat.toDigits 10 octet.val).all Char.isDigit = true :=
    List.all_eq_true.mpr fun c hc => Decimal.isDigit_of_mem_decimal hc
  rw [octet?, if_pos ⟨Nat.toDigits_ne_nil, hdigits, hlength, Decimal.toDigits_head? octet.val⟩]
  simp only [Decimal.natOfDigits_toDigits, octet.isLt, dif_pos]

theorem parse?_write (address : Ipv4) : parse? address.write = some address := by
  rcases address with ⟨octets, hlength⟩
  have hne : octets.map (fun octet => Nat.toDigits 10 octet.val) ≠ [] := by
    intro hnil
    simp [List.map_eq_nil_iff.mp hnil] at hlength
  have hparts : ∀ part ∈ octets.map (fun octet => Nat.toDigits 10 octet.val), '.' ∉ part := by
    rintro part hpart hdot
    obtain ⟨octet, -, rfl⟩ := List.mem_map.mp hpart
    exact absurd (Decimal.isDigit_of_mem_decimal hdot) (by decide)
  have hread : (octets.map fun octet => Nat.toDigits 10 octet.val).mapM octet? = some octets :=
    mapM_map_some fun octet _ => octet?_toDigits octet
  rw [parse?, write, Text.splitAll_join hne hparts, hread]
  exact dif_pos hlength

theorem isDigit_of_octet? {text : List Char} (hread : (octet? text).isSome = true) :
    ∀ c ∈ text, c.isDigit = true := by
  unfold octet? at hread
  split at hread
  · next hshape => exact List.all_eq_true.mp hshape.2.1
  · cases hread

/-- An address of version 4 has digits and points only. -/
theorem digit_or_point_of_parse? {text : List Char} {address : Ipv4}
    (hread : parse? text = some address) {c : Char} (hc : c ∈ text) :
    c.isDigit = true ∨ c = '.' := by
  unfold parse? at hread
  split at hread
  · next octets hoctets =>
    rcases Text.mem_splitAll '.' hc with hpoint | ⟨part, hpart, hmem⟩
    · exact .inr hpoint
    · exact .inl (isDigit_of_octet? (isSome_mapM.mp (by rw [hoctets]; rfl) part hpart) c hmem)
  · cases hread

end Ipv4

/-! ### Version 6

An address is written in two forms, with a gap for the longest run of zero groups or with all eight
groups, and either is read back. A scope stands behind a percent sign, which no group has in it.
-/

namespace Ipv6

/-- A group is read back from its digits. -/
theorem hextet?_writeGroup (group : Hextet) : hextet? (writeGroup group) = some group := by
  have hlength : (Nat.toDigits 16 group.val).length ≤ 4 :=
    (Nat.length_toDigits_le_iff (by decide) (by decide)).mpr (by omega)
  obtain ⟨digits, hdigits, hvalue⟩ := Decimal.mapM_hexValue?_toDigits group.val
  rw [hextet?, writeGroup, if_pos ⟨Nat.toDigits_ne_nil, hlength⟩, hdigits]
  simp only [hvalue, group.isLt, dif_pos]

theorem hexValue?_of_mem_writeGroup {group : Hextet} {c : Char} (hc : c ∈ writeGroup group) :
    (Text.hexValue? c).isSome = true :=
  Decimal.hexValue?_isSome_of_mem hc

theorem writeGroup_ne_nil (group : Hextet) : writeGroup group ≠ [] := Nat.toDigits_ne_nil

theorem not_mem_writeGroup {c : Char} (hmark : Text.hexValue? c = none) (group : Hextet) :
    c ∉ writeGroup group := by
  intro hc
  have hsome := hexValue?_of_mem_writeGroup hc
  rw [hmark] at hsome
  cases hsome

/-- Groups in a row, with no IPv4 address at their end. -/
theorem finalGroups?_map (groups : List Hextet) :
    finalGroups? (groups.map writeGroup) = some groups := by
  induction groups with
  | nil => rfl
  | cons group groups ih =>
      cases groups with
      | nil =>
          have hpoint : (writeGroup group).contains '.' = false := by
            simpa using not_mem_writeGroup (by decide) group
          simp only [List.map_cons, List.map_nil, finalGroups?, hpoint, hextet?_writeGroup]
          rfl
      | cons next groups =>
          rw [List.map_cons] at ih
          simp only [List.map_cons, finalGroups?, hextet?_writeGroup, ih]
          rfl

theorem splitAll_writeGroups (groups : List Hextet) :
    Text.splitAll ':' (writeGroups groups) =
      if groups = [] then [[]] else groups.map writeGroup := by
  split
  · next hnil =>
    rw [hnil]
    rfl
  · next hne =>
    refine Text.splitAll_join (by simpa using hne) fun part hpart => ?_
    obtain ⟨group, -, rfl⟩ := List.mem_map.mp hpart
    exact not_mem_writeGroup (by decide) group

theorem all_written_ne_nil (groups : List Hextet) :
    ∀ part ∈ groups.map writeGroup, decide (part ≠ []) = true := by
  intro part hpart
  obtain ⟨group, -, rfl⟩ := List.mem_map.mp hpart
  exact decide_eq_true (writeGroup_ne_nil group)

theorem groupsOfParts?_map {groups : List Hextet} :
    groupsOfParts? (groups.map writeGroup) = some groups := by
  have hdrop : (groups.map writeGroup).dropWhile (fun part => decide (part ≠ [])) = [] :=
    List.dropWhile_eq_nil_iff.mpr (all_written_ne_nil groups)
  rw [groupsOfParts?]
  simp only [hdrop]
  exact finalGroups?_map groups

theorem partsAfterGap?_splitAll (groups : List Hextet) :
    partsAfterGap? (Text.splitAll ':' (writeGroups groups)) = some (groups.map writeGroup) := by
  rw [splitAll_writeGroups]
  split
  · next hnil =>
    rw [hnil]
    rfl
  · next hne =>
    have hparts : groups.map writeGroup ≠ [] := by simpa using hne
    have hgap : groups.map writeGroup ≠ [[]] := by
      intro hgap
      have hmem : [] ∈ groups.map writeGroup := by simp [hgap]
      obtain ⟨group, -, hempty⟩ := List.mem_map.mp hmem
      exact writeGroup_ne_nil group hempty
    have hall := List.all_eq_true.mpr (all_written_ne_nil groups)
    rw [partsAfterGap?, if_neg hgap, if_pos ⟨hparts, hall⟩]

/-- The groups before and after a double colon are found, with groups of zero between them. -/
theorem groupsOfParts?_gap {before after : List Hextet}
    (hlength : before.length + after.length ≤ 7) :
    groupsOfParts? (Text.splitAll ':' (writeGroups before ++ ':' :: ':' :: writeGroups after)) =
      some (before ++ List.replicate (8 - (before.length + after.length)) 0 ++ after) := by
  have hfill : fillGap? before after =
      some (before ++ List.replicate (8 - (before.length + after.length)) 0 ++ after) :=
    if_pos hlength
  have hbefore : (before.map writeGroup).mapM hextet? = some before :=
    mapM_map_some fun group _ => hextet?_writeGroup group
  have hgap : Text.splitAll ':' (':' :: writeGroups after) =
      [] :: Text.splitAll ':' (writeGroups after) := by rw [Text.splitAll, if_pos rfl]
  -- Without a group in front of the gap there is still an empty part there.
  by_cases hnil : before = []
  · subst hnil
    have hsplit : Text.splitAll ':' (writeGroups [] ++ ':' :: ':' :: writeGroups after) =
        [] :: [] :: Text.splitAll ':' (writeGroups after) := by
      change Text.splitAll ':' (':' :: ':' :: writeGroups after) = _
      rw [Text.splitAll, if_pos rfl, hgap]
    rw [hsplit, groupsOfParts?]
    simp [partsAfterGap?_splitAll, finalGroups?_map, hfill]
  · have hparts : before.map writeGroup ≠ [] := by simpa using hnil
    have hsplit : Text.splitAll ':' (writeGroups before ++ ':' :: ':' :: writeGroups after) =
        before.map writeGroup ++ [] :: Text.splitAll ':' (writeGroups after) := by
      rw [writeGroups, Text.splitAll_join_append hparts, hgap]
      rintro part hpart
      obtain ⟨group, -, rfl⟩ := List.mem_map.mp hpart
      exact not_mem_writeGroup (by decide) group
    have htake : (before.map writeGroup ++ [] :: Text.splitAll ':' (writeGroups after)).takeWhile
        (fun part => decide (part ≠ [])) = before.map writeGroup := by
      rw [List.takeWhile_append_of_pos (all_written_ne_nil before)]
      simp
    have hdrop : (before.map writeGroup ++ [] :: Text.splitAll ':' (writeGroups after)).dropWhile
        (fun part => decide (part ≠ [])) = [] :: Text.splitAll ':' (writeGroups after) := by
      rw [List.dropWhile_append_of_pos (all_written_ne_nil before)]
      simp
    rw [hsplit, groupsOfParts?]
    simp only [htake, hdrop, if_neg hparts, partsAfterGap?_splitAll, hbefore]
    change (finalGroups? (after.map writeGroup) >>= fillGap? before) = _
    rw [finalGroups?_map]
    exact hfill

/-! The run of zero groups that a double colon stands for. -/

/-- A run of zero groups starts the list. -/
theorem take_zeroRun (groups : List Hextet) :
    List.replicate (zeroRun groups) 0 ++ groups.drop (zeroRun groups) = groups := by
  induction groups with
  | nil => rfl
  | cons group groups ih =>
      by_cases hzero : group = 0
      · have hrun : zeroRun (group :: groups) = zeroRun groups + 1 := by simp [zeroRun, hzero]
        rw [hrun, List.replicate_succ, List.drop_succ_cons, List.cons_append, ih, hzero]
      · have hrun : zeroRun (group :: groups) = 0 := by simp [zeroRun, hzero]
        rw [hrun]
        rfl

/-- The gap stands for exactly the zero groups that are not written. -/
theorem splitRun_spec (groups : List Hextet) {length : Nat} (hpos : 0 < length)
    (hlongest : length = longestZeroRun groups) :
    (splitRun length groups).1 ++ (List.replicate length 0 ++ (splitRun length groups).2) =
      groups := by
  induction groups with
  | nil =>
      rw [hlongest] at hpos
      cases hpos
  | cons group groups ih =>
      rw [splitRun]
      split
      · next hrun =>
        rw [← hrun]
        exact take_zeroRun (group :: groups)
      · next hrun =>
        rw [longestZeroRun] at hlongest
        have hrest : length = longestZeroRun groups := by omega
        simpa using ih hrest

/-! The whole text. -/

def writeAddress (groups : List Hextet) : List Char :=
  let length := longestZeroRun groups
  if length ≤ 1 then writeGroups groups
  else
    let (before, after) := splitRun length groups
    writeGroups before ++ ':' :: ':' :: writeGroups after

theorem write_eq (address : Ipv6) :
    address.write = writeAddress address.groups ++
      match address.scope with
      | none => []
      | some scope => '%' :: scope.text := by
  rcases address with ⟨groups, hlength, _ | scope⟩
  · exact (List.append_nil _).symm
  · rfl

/-- The groups of an address are read back from either form. -/
theorem groupsOfParts?_writeAddress {groups : List Hextet} (hlength : groups.length = 8) :
    groupsOfParts? (Text.splitAll ':' (writeAddress groups)) = some groups := by
  rw [writeAddress]
  dsimp only
  split
  · have hne : groups ≠ [] := by
      rintro rfl
      cases hlength
    rw [splitAll_writeGroups, if_neg hne, groupsOfParts?_map]
  · next hlong =>
    have hrun := splitRun_spec groups (by omega) rfl
    generalize splitRun (longestZeroRun groups) groups = halves at hrun ⊢
    obtain ⟨before, after⟩ := halves
    dsimp only at hrun ⊢
    have htotal := congrArg List.length hrun
    simp only [List.length_append, List.length_replicate, hlength] at htotal
    have hzeros : 8 - (before.length + after.length) = longestZeroRun groups := by omega
    rw [groupsOfParts?_gap (by omega), hzeros, List.append_assoc, hrun]

theorem mem_writeGroups {groups : List Hextet} {c : Char} (hc : c ∈ writeGroups groups) :
    c = ':' ∨ (Text.hexValue? c).isSome = true := by
  rcases Text.mem_splitAll ':' hc with hcolon | ⟨part, hpart, hmem⟩
  · exact .inl hcolon
  · rw [splitAll_writeGroups] at hpart
    split at hpart
    · rw [List.mem_singleton.mp hpart] at hmem
      cases hmem
    · obtain ⟨group, -, rfl⟩ := List.mem_map.mp hpart
      exact .inr (hexValue?_of_mem_writeGroup hmem)

theorem mem_writeAddress {groups : List Hextet} {c : Char} (hc : c ∈ writeAddress groups) :
    c = ':' ∨ (Text.hexValue? c).isSome = true := by
  rw [writeAddress] at hc
  dsimp only at hc
  split at hc
  · exact mem_writeGroups hc
  · simp only [List.mem_append, List.mem_cons] at hc
    rcases hc with hbefore | hcolon | hcolon | hafter
    · exact mem_writeGroups hbefore
    · exact .inl hcolon
    · exact .inl hcolon
    · exact mem_writeGroups hafter

/-- The percent sign separates the scope, since no group has one. -/
theorem splitScope?_write (address : Ipv6) :
    splitScope? address.write = some (writeAddress address.groups, address.scope) := by
  have hpercent : '%' ∉ writeAddress address.groups := by
    intro hmem
    rcases mem_writeAddress hmem with hcolon | hdigit
    · cases hcolon
    · cases hdigit
  rw [write_eq, splitScope?]
  rcases hscope : address.scope with _ | scope
  · dsimp only
    rw [List.append_nil, Text.splitFirst?_eq_none hpercent]
  · dsimp only
    rw [Text.splitFirst?_append hpercent]
    dsimp only
    rw [dif_pos ⟨scope.ne_nil, scope.percent_not_mem, scope.slash_not_mem⟩]

theorem parse?_write (address : Ipv6) : parse? address.write = some address := by
  rw [parse?, splitScope?_write]
  simp [groupsOfParts?_writeAddress address.length_groups, address.length_groups]

/-! The texts that are read. -/

theorem length_groupsOfIpv4_le (address : Ipv4) : (groupsOfIpv4 address).length ≤ 2 := by
  unfold groupsOfIpv4
  split <;> simp

/-- A part on its own stands for two groups at most. -/
theorem length_le_of_single {part : List Char} {groups : List Hextet}
    (hgroups : groupsOfParts? [part] = some groups) : groups.length ≤ 2 := by
  by_cases hnil : part = []
  · subst hnil
    cases hgroups
  · have hdrop : [part].dropWhile (fun part => decide (part ≠ [])) = [] := by simp [hnil]
    rw [groupsOfParts?] at hgroups
    simp only [hdrop, finalGroups?] at hgroups
    split at hgroups
    · obtain ⟨address, -, rfl⟩ := Option.map_eq_some_iff.mp hgroups
      exact length_groupsOfIpv4_le address
    · obtain ⟨group, -, rfl⟩ := Option.map_eq_some_iff.mp hgroups
      exact Nat.le_succ 1

theorem subset_of_splitScope? {text front : List Char} {scope : Option Scope}
    (hsplit : splitScope? text = some (front, scope)) : front ⊆ text := by
  unfold splitScope? at hsplit
  split at hsplit
  · cases hsplit
    exact List.Subset.refl text
  · next before zone hfound =>
    split at hsplit
    · cases hsplit
      rw [Text.splitFirst?_eq_some hfound]
      exact List.subset_append_left _ _
    · cases hsplit

/-- Every text of an address has a colon. -/
theorem colon_mem_of_parse? {text : List Char} {address : Ipv6}
    (hread : parse? text = some address) : ':' ∈ text := by
  by_contra hcolon
  obtain ⟨⟨front, scope⟩, hsplit, hread⟩ := Option.bind_eq_some_iff.mp hread
  obtain ⟨groups, hgroups, hread⟩ := Option.bind_eq_some_iff.mp hread
  have hfront : ':' ∉ front := fun hmem => hcolon (subset_of_splitScope? hsplit hmem)
  rw [Text.splitAll_of_not_mem hfront] at hgroups
  have hshort := length_le_of_single hgroups
  split at hread
  · omega
  · cases hread

end Ipv6

namespace IpAddress

theorem parse?_eq_v4 {text : List Char} {address : Ipv4} :
    parse? text = some (.v4 address) ↔ Ipv4.parse? text = some address := by
  unfold parse?
  cases Ipv4.parse? text <;> simp

/-- What has no colon can only be of version 4, and what has one only of version 6. -/
theorem parse?_eq_v6 {text : List Char} {address : Ipv6} :
    parse? text = some (.v6 address) ↔ Ipv6.parse? text = some address := by
  unfold parse?
  cases hfour : Ipv4.parse? text with
  | none => simp
  | some other =>
      refine iff_of_false (by simp) fun hsix => ?_
      rcases Ipv4.digit_or_point_of_parse? hfour (Ipv6.colon_mem_of_parse? hsix) with
        hdigit | hpoint
      · exact absurd hdigit (by decide)
      · exact absurd hpoint (by decide)

theorem parse?_write (address : IpAddress) : parse? address.write = some address := by
  cases address with
  | v4 address => exact parse?_eq_v4.mpr address.parse?_write
  | v6 address => exact parse?_eq_v6.mpr address.parse?_write

end IpAddress

end ReverseProxy
