import ReverseProxy.Proofs.Config.Faults
import ReverseProxy.Proofs.Schema.PlainText
import ReverseProxy.Proofs.Service.Answers

/-!
# Several documents

Documents are treated as if each of them stood alone. The first that cannot be read decides, then
the first that is refused, and otherwise what is answered for all is put together from the answers
for each (`documents_answered_separately`).
-/

namespace ReverseProxy

open Config Decimal Kdl Schema

theorem Kdl.exists_holds_of_hasEntry {node : Node} {entry : Entry} (hentry : HasEntry node entry) :
    ∃ held, node.Holds held ∧ entry ∈ held.entries := by
  induction hentry with
  | own hentry => exact ⟨_, .self, hentry⟩
  | inBlock hblock hchild _ ih =>
      obtain ⟨held, hheld, hentry⟩ := ih
      exact ⟨held, .inBlock hblock hchild hheld, hentry⟩

namespace Source

/-- Reading is not stopped by a number with too many digits, as it is by no other thing
(`readDocument_failsBy`), and no integer of the document has too many. -/
structure WithinLimits (source : Source) : Prop where
  literals : ∀ limit, readDocument source.text.toList ≠ .error (.digits limit)
  integers : ∀ document node entry number, readDocument source.text.toList = .ok document →
    document.Holds node → entry ∈ node.entries → entry.value = .integer number →
    (Nat.toDigits 10 number.natAbs).length ≤ maxDigits

def IsWellFormed (source : Source) : Prop :=
  ∃ document, readDocument source.text.toList = .ok document

/-- The document of the source gives the bundle. -/
def Gives (source : Source) (bundle : Bundle) : Prop :=
  ∃ document, readDocument source.text.toList = .ok document ∧
    (Bundle.ofDocument source.name document).result = .ok bundle

def IsAccepted (source : Source) : Prop := ∃ bundle, source.Gives bundle

variable {source : Source}

theorem read_eq_ok {document : Document} :
    source.read = .ok document ↔ readDocument source.text.toList = .ok document :=
  mapError_eq_ok

theorem IsAccepted.isWellFormed (haccepted : source.IsAccepted) : source.IsWellFormed :=
  let ⟨_, document, hread, _⟩ := haccepted
  ⟨document, hread⟩

theorem Gives.sourceName_eq {bundle : Bundle} (hgives : source.Gives bundle) :
    bundle.sourceName = source.name := by
  obtain ⟨document, -, hbundle⟩ := hgives
  exact (Bundle.read_eq_ok.mp (Bundle.ofDocument_eq_ok.mp hbundle)).1

/-- Every integer of such a document can be written. -/
theorem WithinLimits.isBounded (hlimits : source.WithinLimits) {document : Document} {node : Node}
    {entry : Entry} (hread : readDocument source.text.toList = .ok document)
    (hheld : document.Holds node) (hentry : entry ∈ node.entries) : entry.value.IsBounded := by
  cases hvalue : entry.value with
  | integer number =>
      have hdigits := hlimits.integers document node entry number hread hheld hentry hvalue
      rwa [Scalar.IsBounded, ← String.length_toList, Nat.toList_repr]
  | float => trivial
  | string => trivial
  | boolean => trivial
  | null => trivial

/-- A document within the limits that cannot be read has a problem at some place. -/
theorem WithinLimits.exists_unread (hlimits : source.WithinLimits)
    (hunread : ¬source.IsWellFormed) :
    ∃ problem span, readDocument source.text.toList = .error (.located problem span) := by
  cases hread : readDocument source.text.toList with
  | ok document => exact absurd ⟨document, hread⟩ hunread
  | error failure =>
      cases failure with
      | located problem span => exact ⟨problem, span, rfl⟩
      | digits limit => exact absurd hread (hlimits.literals limit)

/-- A document within the limits that gives no bundle has a problem at some place. -/
theorem WithinLimits.exists_refused (hlimits : source.WithinLimits) {document : Document}
    (hread : readDocument source.text.toList = .ok document) (hrefused : ¬source.IsAccepted) :
    ∃ problem span,
      (Bundle.ofDocument source.name document).result = .error (.located problem span) := by
  cases hcheck : (Bundle.ofDocument source.name document).result with
  | ok bundle => exact absurd ⟨bundle, document, hread, hcheck⟩ hrefused
  | error failure =>
      cases failure with
      | located problem span => exact ⟨problem, span, rfl⟩
      | digits limit =>
          obtain ⟨node, hnode, entry, hentry, hlong⟩ :=
            (Bundle.ofDocument_failsBy source.name document).reason_of_eq _ hcheck
          obtain ⟨held, hheld, hentry⟩ := exists_holds_of_hasEntry hentry
          have hbounded := hlimits.isBounded hread ⟨node, hnode, hheld⟩ hentry
          by_cases hnull : entry.value = .null
          · rw [hnull] at hlong
            cases hlong
          · obtain ⟨text, htext⟩ := Scalar.exists_plainText hbounded hnull
            cases htext.symm.trans hlong

end Source

/-! ### The first that fails

Documents are read one after the other, all of them before any is checked. So the first text that is
not well-formed counts before any document that is refused.
-/

/-- The condition does not hold of the source, but of all before it. -/
def IsFirstWithout (holds : Source → Prop) (sources : List Source) (source : Source) : Prop :=
  ∃ before after, sources = before ++ source :: after ∧ (∀ earlier ∈ before, holds earlier) ∧
    ¬holds source

section Loading

variable {holds : Source → Prop} {path : Path} {sources : List Source} {source : Source}

/-- If a condition fails, it fails somewhere first. -/
theorem exists_isFirstWithout (hwithout : ∃ source ∈ sources, ¬holds source) :
    ∃ source, IsFirstWithout holds sources source := by
  induction sources with
  | nil =>
      obtain ⟨_, hmem, -⟩ := hwithout
      cases hmem
  | cons first others ih =>
      by_cases hfirst : holds first
      · obtain ⟨other, hother, hwithout⟩ := hwithout
        have hothers : other ∈ others :=
          (List.mem_cons.mp hother).resolve_left fun hsame => hwithout (hsame ▸ hfirst)
        obtain ⟨source, before, after, rfl, hbefore, hsource⟩ := ih ⟨other, hothers, hwithout⟩
        exact ⟨source, first :: before, after, rfl,
          List.forall_mem_cons.mpr ⟨hfirst, hbefore⟩, hsource⟩
      · exact ⟨first, [], others, rfl, nofun, hfirst⟩

theorem IsFirstWithout.mem (hfirst : IsFirstWithout holds sources source) : source ∈ sources := by
  obtain ⟨before, after, rfl, -, -⟩ := hfirst
  exact List.mem_append_right before List.mem_cons_self

theorem IsFirstWithout.not_holds (hfirst : IsFirstWithout holds sources source) :
    ¬holds source := by
  obtain ⟨_, _, -, -, hsource⟩ := hfirst
  exact hsource

/-- A source on its own is the first if it is so among others. -/
theorem IsFirstWithout.alone (hfirst : IsFirstWithout holds sources source) :
    IsFirstWithout holds [source] source :=
  ⟨[], [], rfl, nofun, hfirst.not_holds⟩

theorem result_loadSources (sources : List Source) :
    (loadSources sources).result =
      sources.mapM fun source => Prod.mk source <$> source.read := by
  rw [loadSources, Logged.result_mapM]
  refine congrArg sources.mapM (funext fun source => ?_)
  simp only [Source.load, Logged.result_bind, Logged.result_lift, Logged.result_note,
    Logged.result_pure, ok_bind]
  cases source.read <;> rfl

def Source.Loads (source : Source) (loaded : Source × Document) : Prop :=
  Prod.mk source <$> source.read = .ok loaded

theorem Source.loads_of_read {document : Document}
    (hread : readDocument source.text.toList = .ok document) : source.Loads (source, document) := by
  rw [Loads, read_eq_ok.mpr hread]
  rfl

/-- The first text that cannot be read ends the loading. -/
theorem loadBundles_of_unread {failure : LoadFailure}
    (hfirst : IsFirstWithout Source.IsWellFormed sources source)
    (hread : source.read = .error failure) :
    (loadBundles path (loadSources sources)).result = .error failure := by
  obtain ⟨before, after, rfl, hbefore, -⟩ := hfirst
  have hload : (loadSources (before ++ source :: after)).result = .error failure := by
    rw [result_loadSources]
    refine mapM_eq_error.mpr ⟨before, source, after, rfl, fun earlier hearlier => ?_, ?_⟩
    · obtain ⟨document, hdocument⟩ := hbefore earlier hearlier
      exact ⟨_, Source.loads_of_read hdocument⟩
    · rw [hread]
      rfl
  rw [result_loadBundles, hload]
  rfl

/-- The bundle that is made of what was loaded. -/
def Makes (loaded : Source × Document) (bundle : Bundle) : Prop :=
  (loaded.1.report (Bundle.ofDocument loaded.1.name loaded.2)).result = .ok bundle

theorem Source.Gives.exists_loads {bundle : Bundle} (hgives : source.Gives bundle) :
    ∃ loaded, source.Loads loaded ∧ Makes loaded bundle := by
  obtain ⟨document, hread, hbundle⟩ := hgives
  exact ⟨(source, document), loads_of_read hread, report_eq_ok.mpr hbundle⟩

/-- If all can be read, the first document that is refused ends the loading. -/
theorem loadBundles_of_refused {document : Document} {failure : LoadFailure}
    (hread : ∀ other ∈ sources, other.IsWellFormed)
    (hfirst : IsFirstWithout Source.IsAccepted sources source)
    (hdocument : readDocument source.text.toList = .ok document)
    (hcheck : (source.report (Bundle.ofDocument source.name document)).result = .error failure) :
    (loadBundles path (loadSources sources)).result = .error failure := by
  obtain ⟨before, after, rfl, hbefore, -⟩ := hfirst
  have hafter := (List.forall_mem_cons.mp (List.forall_mem_append.mp hread).2).2
  obtain ⟨earlier, hearlier⟩ : ∃ earlier, List.Forall₂ (fun source loaded =>
      source.Loads loaded ∧ ∃ bundle, Makes loaded bundle) before earlier := by
    refine exists_forall₂ fun source hsource => ?_
    obtain ⟨bundle, hgives⟩ := hbefore source hsource
    obtain ⟨loaded, hloads, hmakes⟩ := hgives.exists_loads
    exact ⟨loaded, hloads, bundle, hmakes⟩
  obtain ⟨later, hlater⟩ : ∃ later, List.Forall₂ Source.Loads after later := by
    refine exists_forall₂ fun source hsource => ?_
    obtain ⟨document, hdocument⟩ := hafter source hsource
    exact ⟨_, Source.loads_of_read hdocument⟩
  have hloads : List.Forall₂ Source.Loads (before ++ source :: after)
      (earlier ++ (source, document) :: later) :=
    List.rel_append (hearlier.imp fun _ _ hboth => hboth.1)
      (.cons (Source.loads_of_read hdocument) hlater)
  have hmade : ∀ loaded ∈ earlier, ∃ bundle, Makes loaded bundle :=
    forall_of_forall₂ hearlier fun _ _ hboth => hboth.2
  rw [result_loadBundles, result_loadSources, mapM_eq_ok.mpr hloads]
  exact mapM_eq_error.mpr ⟨earlier, _, later, rfl, hmade, hcheck⟩

/-- If each gives a bundle, these are loaded. -/
theorem loadBundles_of_gives {bundles : List Bundle}
    (hgives : List.Forall₂ Source.Gives sources bundles) :
    (loadBundles path (loadSources sources)).result = .ok bundles := by
  obtain ⟨loaded, hloads, hmakes⟩ : ∃ loaded, List.Forall₂ Source.Loads sources loaded ∧
      List.Forall₂ Makes loaded bundles := by
    induction hgives with
    | nil => exact ⟨[], .nil, .nil⟩
    | cons hfirst _ ih =>
        obtain ⟨others, hothers, hbundles⟩ := ih
        obtain ⟨first, hloads, hmakes⟩ := hfirst.exists_loads
        exact ⟨first :: others, .cons hloads hothers, .cons hmakes hbundles⟩
  rw [result_loadBundles, result_loadSources, mapM_eq_ok.mpr hloads]
  exact mapM_eq_ok.mpr hmakes

end Loading

structure Summary where
  files : List String
  services : List String
  listeners : Nat
  upstreams : Nat
  chains : Nat
  keyProfiles : Nat

namespace Summary

def data (summary : Summary) : List (String × Json) :=
  [("files", .ofList .string summary.files), ("services", .ofList .string summary.services),
    ("listeners", .ofNat summary.listeners), ("upstreams", .ofNat summary.upstreams),
    ("chains", .ofNat summary.chains), ("key_profiles", .ofNat summary.keyProfiles)]

def join (summaries : List Summary) : Summary :=
  ⟨summaries.flatMap files, summaries.flatMap services, (summaries.map listeners).sum,
    (summaries.map upstreams).sum, (summaries.map chains).sum, (summaries.map keyProfiles).sum⟩

def ofBundle (bundle : Bundle) : Summary :=
  ⟨[bundle.sourceName], bundle.services.map Service.name,
    (bundle.services.map Service.listenerCount).sum,
    (bundle.services.map Service.upstreamCount).sum, bundle.chains.size, bundle.keyProfiles.size⟩

end Summary

namespace Operation

theorem total_eq_sum (counts : List Nat) : total counts = counts.sum := by
  induction counts with
  | nil => rfl
  | cons count counts ih => rw [total, ih, List.sum_cons]

/-- What is found out of all bundles together is what is found out of each, joined. -/
theorem summary_eq_join (bundles : List Bundle) :
    summary bundles = (Summary.join (bundles.map Summary.ofBundle)).data := by
  have hcounts (count : Service → Nat) :
      (bundles.flatMap fun bundle => bundle.services.map count).sum =
        (bundles.map fun bundle => (bundle.services.map count).sum).sum := by
    induction bundles with
    | nil => rfl
    | cons bundle bundles ih =>
        rw [List.flatMap_cons, List.sum_append, ih, List.map_cons, List.sum_cons]
  have hfiles : bundles.flatMap (fun bundle => [bundle.sourceName]) =
      bundles.map Bundle.sourceName := List.map_eq_flatMap.symm
  simp only [summary, Summary.join, Summary.data, total_eq_sum, hcounts, Json.ofList,
    List.flatMap_map, List.map_map, Function.comp_def, Summary.ofBundle, hfiles, List.map_flatMap]

theorem summary_singleton (bundle : Bundle) :
    summary [bundle] = (Summary.ofBundle bundle).data := by
  rw [summary_eq_join]
  simp [Summary.join]

/-- The answer for sources that are at hand. -/
def answer (operation : Operation) (path : Path) (sources : List Source) : Except Abort Result :=
  (operation.run path (loadSources sources)).result

section Answers

variable {path : Path} {sources : List Source} {bundles : List Bundle}

theorem answer_of_gives (operation : Operation)
    (hgives : List.Forall₂ Source.Gives sources bundles) :
    operation.answer path sources =
      .ok (Result.success operation.name (operation.data bundles)) :=
  run_of_loaded (loadBundles_of_gives hgives)

/-- A source that fails among others as it does on its own. -/
theorem answers_of_diagnostic {source : Source} {diagnostic : Diagnostic}
    (hload : (loadBundles path (loadSources sources)).result = .error (.diagnostic diagnostic))
    (halone : (loadBundles path (loadSources [source])).result = .error (.diagnostic diagnostic))
    (operation : Operation) :
    operation.answer path sources = .ok (Result.failure operation.name diagnostic.error) ∧
      operation.answer path [source] = operation.answer path sources := by
  have hfailed : operation.answer path sources =
      .ok (Result.failure operation.name diagnostic.error) := run_of_reported hload rfl
  exact ⟨hfailed, (run_of_reported halone rfl).trans hfailed.symm⟩

theorem check_answers (hgives : List.Forall₂ Source.Gives sources bundles) :
    ∃ summaries, List.Forall₂ (fun source summary =>
        check.answer path [source] = .ok (Result.success "check" summary.data))
        sources summaries ∧
      check.answer path sources = .ok (Result.success "check" (Summary.join summaries).data) := by
  refine ⟨bundles.map Summary.ofBundle, ?_, ?_⟩
  · rw [List.forall₂_map_right_iff]
    refine hgives.imp fun source bundle hbundle => ?_
    rw [answer_of_gives check (.cons hbundle .nil), ← summary_singleton]
    rfl
  · rw [answer_of_gives check hgives, ← summary_eq_join]
    rfl

theorem dump_answers (hgives : List.Forall₂ Source.Gives sources bundles) :
    ∃ parts : List (List Json), List.Forall₂ (fun source part =>
        dump.answer path [source] = .ok (Result.success "show" [("bundles", .array part)]))
        sources parts ∧
      dump.answer path sources =
        .ok (Result.success "show" [("bundles", .array parts.flatten)]) := by
  refine ⟨bundles.map fun bundle => [bundle.toJson], ?_, ?_⟩
  · rw [List.forall₂_map_right_iff]
    exact hgives.imp fun source bundle hbundle => answer_of_gives dump (.cons hbundle .nil)
  · rw [answer_of_gives dump hgives, ← List.flatMap_def, ← List.map_eq_flatMap]
    rfl

theorem sourceNames_of_gives (hgives : List.Forall₂ Source.Gives sources bundles) :
    bundles.map Bundle.sourceName = sources.map Source.name := by
  induction hgives with
  | nil => rfl
  | cons hfirst _ ih => rw [List.map_cons, List.map_cons, hfirst.sourceName_eq, ih]

theorem fields_of_gives (hgives : List.Forall₂ Source.Gives sources bundles) :
    List.zipWith (fun source text => (source.name, Json.string text)) sources
        (bundles.map Bundle.text) =
      bundles.map fun bundle => (bundle.sourceName, .string bundle.text) := by
  induction hgives with
  | nil => rfl
  | cons hfirst _ ih =>
      rw [List.map_cons, List.zipWith_cons_cons, ih, List.map_cons, hfirst.sourceName_eq]

theorem format_answers (hgives : List.Forall₂ Source.Gives sources bundles)
    (hnames : (sources.map Source.name).Nodup) :
    ∃ texts : List String, List.Forall₂ (fun source text =>
        format.answer path [source] =
          .ok (Result.success "fmt" [("documents", .object [(source.name, .string text)])]))
        sources texts ∧
      format.answer path sources = .ok (Result.success "fmt" [("documents", .object
        (List.zipWith (fun source text => (source.name, .string text)) sources texts))]) := by
  have hdata (bundles : List Bundle) (hnames : (bundles.map Bundle.sourceName).Nodup) :
      format.data bundles = [("documents",
        .object (bundles.map fun bundle => (bundle.sourceName, .string bundle.text)))] := by
    rw [data, Json.ofDictionary, entries_texts hnames, List.map_map]
    rfl
  refine ⟨bundles.map Bundle.text, ?_, ?_⟩
  · rw [List.forall₂_map_right_iff]
    refine hgives.imp fun source bundle hbundle => ?_
    have hone : ([bundle].map Bundle.sourceName).Nodup := by simp
    rw [answer_of_gives format (.cons hbundle .nil), hdata [bundle] hone, ← hbundle.sourceName_eq]
    rfl
  · have hbundles : (bundles.map Bundle.sourceName).Nodup := sourceNames_of_gives hgives ▸ hnames
    rw [answer_of_gives format hgives, hdata bundles hbundles, fields_of_gives hgives]
    rfl

end Answers

/-- **Several documents.** Of sources with different names, the first with a text that cannot be
read decides the answer of every operation. If all can be read, the first with a document that is
refused does. Otherwise every operation succeeds, and its answer is put together from its answers
for each source on its own: names and bundles one behind the other, sums of the counts, and the text
of each source under its name. -/
theorem documents_answered_separately (path : Path) (sources : List Source)
    (hnames : (sources.map Source.name).Nodup)
    (hlimits : ∀ source ∈ sources, source.WithinLimits) :
    ((∃ source ∈ sources, ¬source.IsWellFormed) →
      ∃ source problem span, IsFirstWithout Source.IsWellFormed sources source ∧
        readDocument source.text.toList = .error (.located problem span) ∧
        ∀ operation, answer operation path sources =
            .ok (Result.failure operation.name (problem.diagnostic span source).error) ∧
          answer operation path [source] = answer operation path sources) ∧
    ((∀ source ∈ sources, source.IsWellFormed) → (∃ source ∈ sources, ¬source.IsAccepted) →
      ∃ source document problem span, IsFirstWithout Source.IsAccepted sources source ∧
        readDocument source.text.toList = .ok document ∧
        (Bundle.ofDocument source.name document).result = .error (.located problem span) ∧
        ∀ operation, answer operation path sources =
            .ok (Result.failure operation.name (problem.diagnostic span source).error) ∧
          answer operation path [source] = answer operation path sources) ∧
    ((∀ source ∈ sources, source.IsAccepted) →
      (∃ summaries, List.Forall₂ (fun source summary =>
          check.answer path [source] = .ok (Result.success "check" summary.data))
          sources summaries ∧
        check.answer path sources = .ok (Result.success "check" (Summary.join summaries).data)) ∧
      (∃ parts : List (List Json), List.Forall₂ (fun source part =>
          dump.answer path [source] = .ok (Result.success "show" [("bundles", .array part)]))
          sources parts ∧
        dump.answer path sources =
          .ok (Result.success "show" [("bundles", .array parts.flatten)])) ∧
      ∃ texts : List String, List.Forall₂ (fun source text =>
          format.answer path [source] =
            .ok (Result.success "fmt" [("documents", .object [(source.name, .string text)])]))
          sources texts ∧
        format.answer path sources = .ok (Result.success "fmt" [("documents", .object
          (List.zipWith (fun source text => (source.name, .string text)) sources texts))])) := by
  refine ⟨fun hunread => ?_, fun hread hrefused => ?_, fun haccepted => ?_⟩
  · obtain ⟨source, hfirst⟩ := exists_isFirstWithout hunread
    obtain ⟨problem, span, hproblem⟩ := (hlimits source hfirst.mem).exists_unread hfirst.not_holds
    have hread : source.read = .error (.diagnostic (problem.diagnostic span source)) :=
      mapError_eq_error.mpr ⟨_, hproblem, rfl⟩
    exact ⟨source, problem, span, hfirst, hproblem,
      answers_of_diagnostic (loadBundles_of_unread hfirst hread)
        (loadBundles_of_unread hfirst.alone hread)⟩
  · obtain ⟨source, hfirst⟩ := exists_isFirstWithout hrefused
    obtain ⟨document, hdocument⟩ := hread source hfirst.mem
    obtain ⟨problem, span, hproblem⟩ :=
      (hlimits source hfirst.mem).exists_refused hdocument hfirst.not_holds
    have hcheck : (source.report (Bundle.ofDocument source.name document)).result =
        .error (.diagnostic (problem.diagnostic span source)) :=
      mapError_eq_error.mpr ⟨_, hproblem, rfl⟩
    have hone : ∀ other ∈ [source], other.IsWellFormed :=
      List.forall_mem_singleton.mpr ⟨document, hdocument⟩
    exact ⟨source, document, problem, span, hfirst, hdocument, hproblem,
      answers_of_diagnostic (loadBundles_of_refused hread hfirst hdocument hcheck)
        (loadBundles_of_refused hone hfirst.alone hdocument hcheck)⟩
  · obtain ⟨bundles, hgives⟩ := exists_forall₂ haccepted
    exact ⟨check_answers hgives, dump_answers hgives, format_answers hgives hnames⟩

def webSource (name : String) : Source := .mk name
  "services\x7bw\x7blisteners\x7b1.1.1.1:1;\x7d;connectors\x7bupstream \"1.1.1.1:1\";\x7d;\x7d;\x7d"

def webDocument : Document :=
  ⟨[⟨"services", ⟨0, 8⟩, ⟨0, 70⟩, [],
    some ⟨[⟨"w", ⟨9, 1⟩, ⟨9, 59⟩, [],
      some ⟨[⟨"listeners", ⟨11, 9⟩, ⟨11, 21⟩, [],
          some ⟨[⟨"1.1.1.1:1", ⟨21, 9⟩, ⟨21, 9⟩, [], none⟩], ⟨20, 12⟩⟩⟩,
        ⟨"connectors", ⟨33, 10⟩, ⟨33, 33⟩, [],
          some ⟨[⟨"upstream", ⟨44, 8⟩, ⟨44, 20⟩, [⟨none, .string "1.1.1.1:1", ⟨53, 11⟩⟩], none⟩],
            ⟨43, 23⟩⟩⟩], ⟨10, 58⟩⟩⟩], ⟨8, 62⟩⟩⟩], ⟨0, 70⟩⟩

set_option maxRecDepth 10000 in
theorem readDocument_web (name : String) :
    readDocument (webSource name).text.toList = .ok webDocument := by
  unfold webSource webDocument
  dsimp only
  rfl

theorem webDocument_values {node : Node} {entry : Entry} (hheld : webDocument.Holds node)
    (hentry : entry ∈ node.entries) : entry.value = .string "1.1.1.1:1" := by
  obtain ⟨services, hservices, hheld⟩ := hheld
  cases List.mem_singleton.mp hservices
  cases hheld with
  | self => cases hentry
  | inBlock hblock hweb hheld =>
      cases hblock
      cases List.mem_singleton.mp hweb
      cases hheld with
      | self => cases hentry
      | inBlock hblock hpart hheld =>
          cases hblock
          rcases List.mem_pair.mp hpart with rfl | rfl
          · cases hheld with
            | self => cases hentry
            | inBlock hblock hlistener hheld =>
                cases hblock
                cases List.mem_singleton.mp hlistener
                cases hheld with
                | self => cases hentry
                | inBlock hblock => cases hblock
          · cases hheld with
            | self => cases hentry
            | inBlock hblock hupstream hheld =>
                cases hblock
                cases List.mem_singleton.mp hupstream
                cases hheld with
                | self => exact congrArg Entry.value (List.mem_singleton.mp hentry)
                | inBlock hblock => cases hblock

theorem withinLimits_of_read {source : Source} {document : Document}
    (hread : readDocument source.text.toList = .ok document)
    (hvalues : ∀ node, document.Holds node → ∀ entry ∈ node.entries, ∀ number,
      entry.value ≠ .integer number) : source.WithinLimits := by
  refine ⟨fun limit hlimit => ?_, fun found node entry number hfound hheld hentry hvalue => ?_⟩
  · cases hread.symm.trans hlimit
  · cases hread.symm.trans hfound
    exact absurd hvalue (hvalues node hheld entry hentry number)

theorem webSource_withinLimits (name : String) : (webSource name).WithinLimits :=
  withinLimits_of_read (readDocument_web name) fun node hheld entry hentry number hvalue => by
    cases (webDocument_values hheld hentry).symm.trans hvalue

theorem webSource_isAccepted {name : String} (hname : name ∈ ["a.kdl", "b.kdl"]) :
    (webSource name).IsAccepted := by
  have hok : ∀ name ∈ ["a.kdl", "b.kdl"],
      (Bundle.ofDocument name webDocument).result.isOk = true := by decide +kernel
  obtain ⟨bundle, hbundle⟩ := exists_of_isOk (hok name hname)
  exact ⟨bundle, webDocument, readDocument_web name, hbundle⟩

/-- Two documents with a service each; with one behind them that is refused; and with a further one
that cannot be read, which hides the refused one. -/
theorem documents_answered_separately_web :
    let path := Path.parse "conf.d"
    let webs := [webSource "a.kdl", webSource "b.kdl"]
    let refused : Source := ⟨"c.kdl", "a"⟩
    let unread : Source := ⟨"d.kdl", "a \x7d"⟩
    let all := webs ++ [refused, unread]
    ((all.map Source.name).Nodup ∧ ∀ source ∈ all, source.WithinLimits) ∧
    (∃ source problem span, IsFirstWithout Source.IsWellFormed all source ∧
      readDocument source.text.toList = .error (.located problem span) ∧
      ∀ operation, answer operation path all =
          .ok (Result.failure operation.name (problem.diagnostic span source).error) ∧
        answer operation path [source] = answer operation path all) ∧
    (∃ source document problem span, IsFirstWithout Source.IsAccepted (webs ++ [refused]) source ∧
      readDocument source.text.toList = .ok document ∧
      (Bundle.ofDocument source.name document).result = .error (.located problem span) ∧
      ∀ operation, answer operation path (webs ++ [refused]) =
          .ok (Result.failure operation.name (problem.diagnostic span source).error) ∧
        answer operation path [source] = answer operation path (webs ++ [refused])) ∧
    ∃ texts : List String, List.Forall₂ (fun source text =>
        format.answer path [source] =
          .ok (Result.success "fmt" [("documents", .object [(source.name, .string text)])]))
        webs texts ∧
      format.answer path webs = .ok (Result.success "fmt" [("documents", .object
        (List.zipWith (fun source text => (source.name, .string text)) webs texts))]) := by
  intro path webs refused unread all
  have hwebs : ∀ source ∈ webs, source.IsAccepted :=
    List.forall_mem_cons.mpr ⟨webSource_isAccepted (by decide),
      List.forall_mem_singleton.mpr (webSource_isAccepted (by decide))⟩
  have hrefused : readDocument refused.text.toList =
      .ok ⟨[⟨"a", ⟨0, 1⟩, ⟨0, 1⟩, [], none⟩], ⟨0, 1⟩⟩ := by
    unfold refused
    rfl
  have hrefuses : ¬refused.IsAccepted := by
    rintro ⟨bundle, document, hread, hbundle⟩
    cases hrefused.symm.trans hread
    cases hbundle
  have hunread : readDocument unread.text.toList = .error (.located .strayBrace ⟨2, 1⟩) := by
    unfold unread
    rfl
  have hunreadable : ¬unread.IsWellFormed := fun ⟨_, hread⟩ => by cases hunread.symm.trans hread
  have hlimit : refused.WithinLimits := by
    refine withinLimits_of_read hrefused fun node hheld entry hentry => ?_
    obtain ⟨top, htop, hheld⟩ := hheld
    cases List.mem_singleton.mp htop
    cases hheld with
    | self => cases hentry
    | inBlock hblock => cases hblock
  have hlimits : ∀ source ∈ all, source.WithinLimits := by
    intro source hsource
    simp only [all, webs, List.mem_append, List.mem_cons, List.not_mem_nil, or_false] at hsource
    obtain (rfl | rfl) | rfl | rfl := hsource
    · exact webSource_withinLimits _
    · exact webSource_withinLimits _
    · exact hlimit
    · refine ⟨fun limit hread => ?_, fun document _ _ _ hread => ?_⟩
      · cases hunread.symm.trans hread
      · cases hunread.symm.trans hread
  have hnames : (all.map Source.name).Nodup := by decide
  have hbelow (fewer : List Source) (hfewer : fewer.Sublist all) :=
    documents_answered_separately path fewer (hnames.sublist (hfewer.map _))
      fun source hsource => hlimits source (hfewer.subset hsource)
  refine ⟨⟨hnames, hlimits⟩, ?_, ?_, ?_⟩
  · exact (hbelow all (List.Sublist.refl _)).1 ⟨unread, by simp [all], hunreadable⟩
  · refine (hbelow (webs ++ [refused]) ?_).2.1 ?_ ⟨refused, by simp, hrefuses⟩
    · simp [all]
    · intro source hsource
      rcases List.mem_append.mp hsource with hweb | hother
      · exact (hwebs source hweb).isWellFormed
      · exact ⟨_, List.mem_singleton.mp hother ▸ hrefused⟩
  · exact ((hbelow webs (List.sublist_append_left _ _)).2.2 hwebs).2.2

end Operation

end ReverseProxy
