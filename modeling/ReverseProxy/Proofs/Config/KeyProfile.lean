import ReverseProxy.Config.KeyProfile
import ReverseProxy.Proofs.Schema.Directives

/-!
# Key profiles are read as they were written

The name of a transform is written bare where that is possible. A bare name with a line feed behind
it is taken for a bare name too: without parameters the transform is read without the line feed, and
with parameters nothing is read.
-/

namespace ReverseProxy.Config

open Kdl Schema

namespace Transform

/-- The transform that is read where one was written. -/
def reread (transform : Transform) : Transform := ⟨rereadName transform.name, transform.parameters⟩

theorem reread_eq_self {transform : Transform} :
    transform.reread = transform ↔ ¬IsBareLine transform.name := by
  rw [← rereadName_eq_self]
  constructor
  · intro hsame
    exact congrArg Transform.name hsame
  · intro hname
    rw [reread, hname]

def shape? (transform : Transform) : Option Shape :=
  if (IsBareLine transform.name → transform.parameters.entries = []) ∧
      ∀ text ∈ transform.parameters.entries, ¬IsBareLine text.1 then
    some (.mk transform.reread.name (textData transform.parameters.entries) none)
  else none

/-- A transform survives if neither its name nor the key of a parameter is broken. -/
theorem survives_iff {transform : Transform} :
    transform.shape?.isSome = true ∧ transform.reread = transform ↔
      ∀ name ∈ transform.name :: transform.parameters.keys, ¬IsBareLine name := by
  rw [List.forall_mem_cons, reread_eq_self, Dictionary.keys, List.forall_mem_map]
  unfold shape?
  split
  · next hwritten =>
    simp only [Option.isSome_some, true_and]
    exact ⟨fun hname => ⟨hname, hwritten.2⟩, And.left⟩
  · next hwritten =>
    constructor
    · rintro ⟨⟨⟩, -⟩
    · rintro ⟨hname, hkeys⟩
      exact absurd ⟨fun hbare => absurd hbare hname, hkeys⟩ hwritten

/-- Of a node that is written for a transform, everything is read back but what names lose. -/
theorem read_of_shape {node : Node} {transform : Transform}
    (hshape : transform.shape? = some node.shape) :
    Transform.read node = .ok transform.reread := by
  unfold shape? at hshape
  split at hshape
  · obtain ⟨hname, hdata, -⟩ := Node.shape_eq_mk.mp (Option.some.inj hshape).symm
    have htexts : (Focus.node node).texts = .ok transform.parameters :=
      Focus.textsBetween_of_nodup (Nat.zero_le _) hdata transform.parameters.nodup
    rw [Transform.read, htexts, hname]
    rfl
  · cases hshape

theorem linesRead (transform : Transform) (depth : Nat) :
    LinesRead depth [transform.line] (transform.shape?.map ([·])) := by
  by_cases hname : IsBareLine transform.name
  · have hline : LinesRead depth [transform.line]
        (if transform.parameters.entries = [] then
          some [.mk (rereadName transform.name) [] none] else none) :=
      LinesRead.lineOfBareLine hname transform.parameters.entries
    rw [shape?, apply_ite (Option.map ([·]))]
    by_cases hnil : transform.parameters.entries = []
    · rw [if_pos hnil] at hline
      rw [if_pos ⟨fun _ => hnil, by simp [hnil]⟩, hnil]
      exact hline
    · rw [if_neg hnil] at hline
      rw [if_neg fun hwritten => hnil (hwritten.1 hname)]
      exact hline
  · have hline : LinesRead depth [transform.line]
        (if ∀ text ∈ transform.parameters.entries, ¬IsBareLine text.1 then
          some [.mk transform.name ([] ++ textData transform.parameters.entries) none] else none) :=
      LinesRead.textsLine (spellsName_writeName hname) .nil (by simp [line])
    have hsame : transform.reread.name = transform.name :=
      congrArg Transform.name (reread_eq_self.mpr hname)
    rw [shape?, apply_ite (Option.map ([·])), hsame]
    simp only [hname, false_imp_iff, true_and]
    exact hline

end Transform

namespace HashAlgorithm

def pairs (algorithm : HashAlgorithm) : List (String × String) :=
  ("name", algorithm.name) :: algorithm.seed.toList.map fun seed => ("seed", seed)

def shape (algorithm : HashAlgorithm) : Shape := .mk "algorithm" (textData algorithm.pairs) none

theorem nodup_pairs (algorithm : HashAlgorithm) : (algorithm.pairs.map Prod.fst).Nodup := by
  cases hseed : algorithm.seed <;> simp [pairs, hseed]

theorem read_of_shape {node : Node} {algorithm : HashAlgorithm}
    (hshape : node.shape = algorithm.shape) :
    HashAlgorithm.read (.node node) = .ok algorithm := by
  obtain ⟨-, hdata, -⟩ := Node.shape_eq_mk.mp hshape
  have hallowed : ∀ pair ∈ algorithm.pairs, pair.1 ∈ ["name", "seed"] := by
    cases hseed : algorithm.seed <;> simp [pairs, hseed]
  have hoptions : (Focus.node node).allowedTexts 0 none ["name", "seed"] =
      .ok ⟨algorithm.pairs, algorithm.nodup_pairs⟩ :=
    Focus.allowedTexts_of_nodup (Nat.zero_le _) hdata algorithm.nodup_pairs hallowed
  have hname : Dictionary.get? ⟨algorithm.pairs, algorithm.nodup_pairs⟩ "name" =
      some algorithm.name := rfl
  have hseed : Dictionary.get? ⟨algorithm.pairs, algorithm.nodup_pairs⟩ "seed" =
      algorithm.seed := by
    cases hseed : algorithm.seed <;> simp [Dictionary.get?, pairs, hseed, List.lookup_cons]
  rw [HashAlgorithm.read, hoptions, ok_bind, hname, hseed]
  rfl

theorem linesRead (algorithm : HashAlgorithm) (depth : Nat) :
    LinesRead depth ["algorithm" ++ writeProperties
        [("name", some (.text algorithm.name)), ("seed", algorithm.seed.map .text)]]
      (some [algorithm.shape]) := by
  have hkeys : ∀ property ∈ [("name", some (PropertyValue.text algorithm.name)),
      ("seed", algorithm.seed.map .text)], ¬IsBareLine property.1 := by
    simp only [List.forall_mem_cons]
    exact ⟨by decide, by decide, List.forall_mem_nil _⟩
  have hdata : propertyData [("name", some (PropertyValue.text algorithm.name)),
      ("seed", algorithm.seed.map .text)] = textData algorithm.pairs := by
    cases hseed : algorithm.seed <;> simp [pairs, hseed] <;> rfl
  rw [shape, ← hdata]
  exact LinesRead.line (spellsName_of_isToken (by decide)) (spellsData_writeProperties hkeys)
    (String.toList_append ..)

end HashAlgorithm

namespace KeyProfile

/-- The profile that is read where one was written. -/
def reread (profile : KeyProfile) : KeyProfile :=
  { profile with transforms := profile.transforms.map Transform.reread }

/-- A profile survives if its transforms do. -/
theorem reread_eq_self {profile : KeyProfile} :
    profile.reread = profile ↔ ∀ transform ∈ profile.transforms, transform.reread = transform := by
  constructor
  · intro hsame
    have htransforms : profile.transforms.map Transform.reread = profile.transforms.map id := by
      rw [List.map_id]
      exact congrArg KeyProfile.transforms hsame
    exact List.map_inj_left.mp htransforms
  · intro hall
    have htransforms : profile.transforms.map Transform.reread = profile.transforms :=
      (List.map_congr_left hall).trans (List.map_id' _)
    rw [reread, htransforms]

def fallbackPairs (profile : KeyProfile) : List (String × String) :=
  profile.fallback.toList.map fun fallback => ("fallback", fallback)

def keyShape (profile : KeyProfile) : Shape :=
  .mk "key" (⟨none, .string profile.source⟩ :: textData profile.fallbackPairs) none

/-- The line of a key is read as the template and the fallback. -/
theorem readKey_of_shape {node : Node} {profile : KeyProfile}
    (hshape : node.shape = profile.keyShape) :
    KeyProfile.readKey (.node node) = .ok (profile.source, profile.fallback) := by
  obtain ⟨-, hdata, -⟩ := Node.shape_eq_mk.mp hshape
  obtain ⟨entry, others, hentries, hentry, hothers⟩ := List.map_eq_cons_iff.mp hdata
  have hkeys : (profile.fallbackPairs.map Prod.fst).Nodup := by
    cases hfallback : profile.fallback <;> simp [fallbackPairs, hfallback]
  have hallowed : ∀ pair ∈ profile.fallbackPairs, pair.1 ∈ ["fallback"] := by
    cases hfallback : profile.fallback <;> simp [fallbackPairs, hfallback]
  have hfirst : (Focus.node node).firstEntry = .ok entry := by
    simp only [Focus.firstEntry, Focus.entries, Focus.theNode, ok_bind, pure_eq_ok, hentries]
  have hsource : entry.asString = .ok profile.source :=
    Entry.readsString.eq_ok_iff.mpr (congrArg Datum.value hentry)
  have hoptions : (Focus.node node).allowedTexts 1 none ["fallback"] =
      .ok ⟨profile.fallbackPairs, hkeys⟩ := by
    refine Focus.allowedTexts_of_nodup ?_ ?_ hkeys hallowed
    · simp [hentries]
    · rw [hdata, List.drop_one, List.tail_cons]
  have hfallback : Dictionary.get? ⟨profile.fallbackPairs, hkeys⟩ "fallback" =
      profile.fallback := by
    cases hfallback : profile.fallback <;> simp [Dictionary.get?, fallbackPairs, hfallback]
  rw [KeyProfile.readKey, hfirst, ok_bind, hsource, ok_bind, hoptions, ok_bind, hfallback]
  rfl

theorem keyLine_linesRead (profile : KeyProfile) (depth : Nat) :
    LinesRead depth ["key " ++ quote profile.source ++
        writeProperties [("fallback", profile.fallback.map .text)]] (some [profile.keyShape]) := by
  have hkeys : ∀ property ∈ [("fallback", profile.fallback.map PropertyValue.text)],
      ¬IsBareLine property.1 :=
    List.forall_mem_singleton.mpr (by decide : ¬IsBareLine "fallback")
  have hdata : propertyData [("fallback", profile.fallback.map PropertyValue.text)] =
      textData profile.fallbackPairs := by
    cases hfallback : profile.fallback <;> simp [fallbackPairs, hfallback] <;> rfl
  rw [keyShape, ← hdata]
  exact LinesRead.line (spellsName_of_isToken (by decide))
    (.cons (.positional (.quoted _)) (spellsData_writeProperties hkeys)) (by simp [quote])

def transformShapes? (profile : KeyProfile) : Option (List Shape) :=
  if profile.transforms = [] then some []
  else (profile.transforms.mapM Transform.shape?).map fun below =>
    [.mk "transforms-order" [] (some below)]

def shapes? (profile : KeyProfile) : Option (List Shape) :=
  profile.transformShapes?.map ([profile.keyShape, profile.algorithm.shape] ++ ·)

theorem shapes?_isSome {profile : KeyProfile} :
    profile.shapes?.isSome = true ↔
      ∀ transform ∈ profile.transforms, transform.shape?.isSome = true := by
  rw [shapes?, Option.isSome_map, transformShapes?]
  split
  · next hnil => simp [hnil]
  · rw [Option.isSome_map, isSome_mapM]

/-- A profile survives exactly if no name in its transforms is a bare one with a line feed behind
it. -/
theorem survives_iff {profile : KeyProfile} :
    profile.shapes?.isSome = true ∧ profile.reread = profile ↔
      ∀ transform ∈ profile.transforms,
        ∀ name ∈ transform.name :: transform.parameters.keys, ¬IsBareLine name := by
  rw [shapes?_isSome, reread_eq_self, ← forall₂_and]
  exact forall₂_congr fun transform _ => Transform.survives_iff

/-- Transforms are claimed together, and what is left of the block is empty. -/
theorem readTransforms_of_shapes {nodes : List Node} {profile : KeyProfile} (focus : Focus)
    (hshapes : profile.transformShapes? = some (nodes.map Node.shape)) :
    ∃ found, Claiming.outcome (Claiming.optional "transforms-order" fun focus =>
        liftM (Transform.readAll focus)) ⟨focus, nodes, false⟩ = .ok (found, ⟨focus, [], false⟩) ∧
      found.getD [] = profile.reread.transforms := by
  unfold transformShapes? at hshapes
  split at hshapes
  · next hnil =>
    obtain rfl : nodes = [] := List.map_eq_nil_iff.mp (Option.some.inj hshapes).symm
    refine ⟨none, (Claiming.optional_eq_ok rfl).mpr ⟨none, [], .nothing rfl, .none, rfl⟩, ?_⟩
    rw [reread, hnil]
    rfl
  · obtain ⟨below, hbelow, hnodes⟩ := Option.map_eq_some_iff.mp hshapes
    obtain ⟨node, rfl, hshape⟩ := List.map_eq_singleton_iff.mp hnodes.symm
    obtain ⟨hname, -, hchildren⟩ := Node.shape_eq_mk.mp hshape
    obtain ⟨block, hblock, rfl⟩ := Option.map_eq_some_iff.mp hchildren
    rw [Block.shapes, shapes_eq_map] at hbelow
    have hall : List.Forall₂ (fun node transform => Transform.read node = .ok transform)
        block.nodes (profile.transforms.map Transform.reread) := by
      rw [List.forall₂_map_right_iff]
      have hshaped := (mapM_eq_some.mp hbelow).flip
      rw [List.forall₂_map_left_iff] at hshaped
      exact hshaped.imp fun _ _ => Transform.read_of_shape
    have hread : Transform.readAll (.node node) = .ok profile.reread.transforms := by
      simp only [Transform.readAll, Focus.children, hblock, ok_bind]
      exact mapM_eq_ok.mpr hall
    exact ⟨some profile.reread.transforms, (Claiming.optional_eq_ok rfl).mpr
      ⟨some node, [], .first (Claims.takeFirst?_cons hname []), .some hread, rfl⟩, rfl⟩

/-- The block that is written for a profile is read as what survives of it. -/
theorem read_of_shapes {node : Node} {block : Block Node} {profile : KeyProfile}
    (hblock : node.children = some block) (hshapes : profile.shapes? = some block.shapes) :
    (KeyProfile.read (.node node)).result = .ok profile.reread := by
  obtain ⟨transforms, htransforms, hnodes⟩ := Option.map_eq_some_iff.mp hshapes
  rw [Block.shapes, shapes_eq_map, List.cons_append, List.singleton_append] at hnodes
  obtain ⟨first, others, hfirst, hkey, hothers⟩ := List.map_eq_cons_iff.mp hnodes.symm
  obtain ⟨second, rest, rfl, halgorithm, rfl⟩ := List.map_eq_cons_iff.mp hothers
  obtain ⟨found, hfound, hreread⟩ := readTransforms_of_shapes (.document block) htransforms
  rw [KeyProfile.read]
  simp only [Claiming.result_run, Claims.ofFocus_node, Claiming.outcome_bind, bind_eq_ok]
  refine ⟨_, ⟨.document block, [], true⟩, ⟨block, hblock, rfl⟩, _,
    (Claiming.required_eq_ok rfl).mpr ⟨first, second :: rest, ?_, readKey_of_shape hkey, rfl⟩, _,
    (Claiming.optional_eq_ok rfl).mpr ⟨some second, rest, .first ?_,
      .some (HashAlgorithm.read_of_shape halgorithm), rfl⟩, _, hfound, _,
    (Claiming.finish_eq_ok rfl).mpr ⟨rfl, rfl⟩, ?_⟩
  · rw [hfirst]
    exact Claims.takeFirst?_cons (Node.shape_eq_mk.mp hkey).1 (second :: rest)
  · exact Claims.takeFirst?_cons (Node.shape_eq_mk.mp halgorithm).1 rest
  · rw [hreread]
    rfl

theorem linesRead (profile : KeyProfile) (depth : Nat) :
    LinesRead (depth + 1) profile.lines profile.shapes? := by
  have htransforms : LinesRead (depth + 1)
      (if profile.transforms.isEmpty then []
        else writeBlock "transforms-order" (profile.transforms.map Transform.line))
      profile.transformShapes? := by
    rw [transformShapes?]
    cases htransforms : profile.transforms with
    | nil => exact LinesRead.nil
    | cons transform transforms =>
        rw [List.isEmpty_cons, if_neg Bool.false_ne_true, if_neg (List.cons_ne_nil _ _)]
        exact LinesRead.block (spellsName_of_isToken (by decide)) .nil (List.append_nil _).symm
          (LinesRead.mapM fun transform _ => transform.linesRead depth)
  have hall := ((profile.keyLine_linesRead (depth + 1)).append
    (profile.algorithm.linesRead (depth + 1))).append htransforms
  rw [shapes?]
  cases hshapes : profile.transformShapes? <;> simpa [lines, hshapes] using hall

end KeyProfile

end ReverseProxy.Config
