import ReverseProxy.Output.Report
import ReverseProxy.Proofs.Config.PlainData
import ReverseProxy.Proofs.Config.RoundTrip
import ReverseProxy.Proofs.Kdl.Concatenation
import ReverseProxy.Proofs.Output.Console
import ReverseProxy.Proofs.Service.Answers

/-!
# What is shown of formatted documents

The long form of formatted documents shows their texts behind each other, each below a comment with
its name if there are several. The whole is a document again, as long as the terminal takes nothing
away from the texts and a comment does not go on in a second line, which is none.
-/

namespace ReverseProxy

open Config Kdl Output

namespace Config.Bundle

theorem toList_text (bundle : Bundle) : bundle.text.toList = linesText 0 bundle.lines :=
  toList_joinLines (by simp [lines_eq, writeBlock])

/-- A text that is read was written for what it is read as. -/
theorem spellsNodes_text {bundle : Bundle} {document : Document}
    (hread : readDocument bundle.text.toList = .ok document) :
    SpellsNodes maxDepth bundle.text.toList document.shapes := by
  have hne : bundle.lines ≠ [] := by simp [lines_eq, writeBlock]
  have hlines : LinesRead maxDepth bundle.lines bundle.shapes? := bundle.linesRead 125
  cases hshapes : bundle.shapes? with
  | none =>
      rw [hshapes] at hlines
      obtain ⟨failure, hfailure⟩ := readDocument_joinLines_spoiled hne hlines
      cases hfailure.symm.trans hread
  | some shapes =>
      rw [hshapes] at hlines
      have hnodes : SpellsNodes maxDepth bundle.text.toList shapes := by
        rw [toList_text]
        exact hlines 0
      obtain ⟨found, hfound, rfl⟩ := readDocument_spelled hnodes
      cases hfound.symm.trans hread
      exact hnodes

/-- The text of a bundle ends with a brace and a line feed. -/
theorem exists_text_concat (bundle : Bundle) :
    ∃ front, bundle.text.toList = front ++ ['\x7d', '\n'] := by
  have hblock (head : String) (lines : List String) :
      ∃ front, writeBlock head lines = front ++ ["\x7d"] :=
    ⟨(head ++ " \x7b") :: lines.map (Kdl.indentation ++ ·), rfl⟩
  obtain ⟨front, hfront⟩ : ∃ front, bundle.lines = front ++ ["\x7d"] := by
    rw [lines_eq]
    split
    · rw [List.append_nil]
      exact hblock _ _
    · obtain ⟨front, hfront⟩ := hblock "definitions" (bundle.chains.entries.flatMap chainLines ++
        bundle.keyProfiles.entries.flatMap keyProfileLines)
      rw [hfront, ← List.append_assoc, ← List.append_assoc]
      exact ⟨_, rfl⟩
  refine ⟨linesText 0 front, ?_⟩
  rw [toList_text, hfront, linesText_append]
  rfl

end Config.Bundle

/-- A label that takes one line is a comment. -/
theorem chars_label {name : String} (hname : ∀ c ∈ name.toList, isNewline c = false)
    (hone : (line ("// " ++ name)).chars.count '\n' = 1) :
    ∃ comment, (∀ c ∈ comment, isNewline c = false ∧ c ≠ '\t') ∧
      (line ("// " ++ name)).chars = '/' :: '/' :: (comment ++ ['\n']) := by
  let kept := ' ' :: name.toList.filter fun c => !isDropped c
  have hlabel : ∀ c ∈ ("// " ++ name).toList, isNewline c = false := by
    rw [String.toList_append, List.forall_mem_append]
    exact ⟨List.forall_mem_cons.mpr ⟨rfl, List.forall_mem_cons.mpr
      ⟨rfl, List.forall_mem_singleton.mpr rfl⟩⟩, hname⟩
  have hfeed : '\n' ∉ ("// " ++ name).toList := fun hmem => by cases hlabel '\n' hmem
  have hkept : ("// " ++ name).toList.filter (fun c => !isDropped c) = ['/', '/'] ++ kept := by
    rw [String.toList_append, List.filter_append]
    rfl
  obtain ⟨more, hmore⟩ := expandTabs_append (by decide : '\t' ∉ ['/', '/']) kept
  obtain ⟨comment, hcomment⟩ := cropEnd_slashes more
  have hchars := chars_line hfeed hone
  rw [hkept, hmore] at hchars
  refine ⟨comment, fun c hc => ?_, hchars.trans (congrArg (· ++ ['\n']) hcomment)⟩
  have hcrop : c ∈ cropEnd (['/', '/'] ++ more) := by
    rw [show ['/', '/'] ++ more = '/' :: '/' :: more from rfl, hcomment]
    exact List.mem_cons_of_mem _ (List.mem_cons_of_mem _ hc)
  rcases mem_cropEnd hcrop with rfl | hexpanded
  · decide
  · rw [← hmore, ← hkept] at hexpanded
    rcases mem_expandTabs hexpanded with rfl | ⟨hmem, htab⟩
    · decide
    · exact ⟨hlabel c (List.mem_of_mem_filter hmem), htab⟩

/-- What is printed for one of `count` bundles. -/
def Config.Bundle.shown (count : Nat) (bundle : Bundle) : List Printed :=
  (if 1 < count then [line ("// " ++ bundle.sourceName)] else []) ++ [⟨bundle.text, false, ""⟩]

theorem reported_format {bundles : List Bundle} (hnames : (bundles.map Bundle.sourceName).Nodup)
    (verbose : Bool) :
    (Result.success "fmt" (Operation.format.data bundles)).reported verbose =
      .ok (bundles.flatMap (Bundle.shown bundles.length)) := by
  have hdatum : (Result.success "fmt" (Operation.format.data bundles)).datum "documents"
      (.object []) =
        .object (bundles.map fun bundle => (bundle.sourceName, .string bundle.text)) := by
    change Json.ofDictionary .string (Operation.texts bundles) = _
    rw [Json.ofDictionary, entries_texts hnames, List.map_map]
    rfl
  have hform (data : List (String × Json)) : (Result.success "fmt" data).reported verbose =
      (Result.success "fmt" data).formatReport := by
    simp [Result.reported, Result.success]
  rw [hform, Result.formatReport, hdatum]
  simp only [List.length_map, List.flatMap_map]
  rfl

/-- What the operation `fmt` prints. -/
theorem render_format {bundles : List Bundle} (hnames : (bundles.map Bundle.sourceName).Nodup)
    (verbose : Bool) :
    (Result.success "fmt" (Operation.format.data bundles)).render ⟨false, false, verbose⟩ =
      .ok (print (bundles.flatMap (Bundle.shown bundles.length))) := by
  change Output.print <$> (Result.success "fmt" _).reported verbose = _
  rw [reported_format hnames]
  rfl

/-- What a terminal shows of the text of a bundle is the text without the characters it drops. -/
theorem chars_text {bundle : Bundle} {document : Document}
    (hread : readDocument bundle.text.toList = .ok document) :
    Printed.chars ⟨bundle.text, false, ""⟩ = bundle.text.toList.filter fun c => !isDropped c :=
  (chars_unwrapped (Bundle.spellsNodes_text hread).tab_not_mem).trans (List.append_nil _)

/-- A text without dropped characters is printed as it is, since it has no tabs. -/
theorem chars_text_of_kept {bundle : Bundle} {document : Document}
    (hread : readDocument bundle.text.toList = .ok document)
    (hkept : ∀ c ∈ bundle.text.toList, isDropped c = false) :
    Printed.chars ⟨bundle.text, false, ""⟩ = bundle.text.toList :=
  (chars_text hread).trans (List.filter_eq_self.mpr fun c hc => by rw [hkept c hc, Bool.not_false])

theorem spellsNodes_shown {bundle : Bundle} {document : Document} {count : Nat}
    (hname : ∀ c ∈ bundle.sourceName.toList, isNewline c = false)
    (hread : readDocument bundle.text.toList = .ok document)
    (htext : Printed.chars ⟨bundle.text, false, ""⟩ = bundle.text.toList)
    (hlabel : 1 < count → (line ("// " ++ bundle.sourceName)).chars.count '\n' = 1) :
    SpellsNodes maxDepth ((bundle.shown count).flatMap Printed.chars) document.shapes := by
  have hnodes : SpellsNodes maxDepth bundle.text.toList document.shapes :=
    Bundle.spellsNodes_text hread
  rw [Bundle.shown]
  split
  · next hmany =>
    obtain ⟨comment, hcomment, hchars⟩ := chars_label hname (hlabel hmany)
    rw [List.singleton_append, List.flatMap_cons, List.flatMap_singleton, hchars, htext,
      List.cons_append, List.cons_append, List.append_assoc, List.singleton_append]
    exact .comment hcomment hnodes
  · rwa [List.nil_append, List.flatMap_singleton, htext]

theorem exists_shown_concat {bundles : List Bundle} (hne : bundles ≠ []) (count : Nat)
    (hchars : ∀ bundle ∈ bundles,
      Printed.chars ⟨bundle.text, false, ""⟩ = bundle.text.toList) :
    ∃ front, (bundles.flatMap (Bundle.shown count)).flatMap Printed.chars =
      front ++ ['\x7d', '\n'] := by
  obtain ⟨before, last, rfl⟩ := (List.eq_nil_or_concat' bundles).resolve_left hne
  obtain ⟨front, hfront⟩ := last.exists_text_concat
  have hlast := hchars last (List.mem_append_right _ List.mem_cons_self)
  rw [List.flatMap_append, List.flatMap_append, List.flatMap_singleton, Bundle.shown,
    List.flatMap_append, List.flatMap_singleton, hlast, hfront, ← List.append_assoc,
    ← List.append_assoc]
  exact ⟨_, rfl⟩

/-- Printing takes only the last line feed away. -/
theorem print_closed {printed : List Printed} {front : List Char}
    (hchars : printed.flatMap Printed.chars = front ++ ['\x7d', '\n']) :
    (print printed).toList = front ++ ['\x7d'] := by
  rw [toList_print, hchars, List.reverse_append]
  simp

/-- **Formatted documents are a document.** What is shown of the documents of a path, one or several
of different names, is read as the nodes of their texts one after the other, if the texts have none
of the characters that a terminal drops, and if no name above a text is broken into lines. -/
theorem Operation.format_readable {path : Path} {documents : Loading (List (Source × Document))}
    {bundles : List Bundle} {separate : List Document}
    (hloaded : (loadBundles path documents).result = .ok bundles) (hne : bundles ≠ [])
    (hnames : (bundles.map Bundle.sourceName).Nodup)
    (hbreaks : ∀ bundle ∈ bundles, ∀ c ∈ bundle.sourceName.toList, isNewline c = false)
    (hread : List.Forall₂ (fun bundle document => readDocument bundle.text.toList = .ok document)
      bundles separate)
    (hkept : ∀ bundle ∈ bundles, ∀ c ∈ bundle.text.toList, isDropped c = false)
    (hlabels : 1 < bundles.length → ∀ bundle ∈ bundles,
      (line ("// " ++ bundle.sourceName)).chars.count '\n' = 1) (verbose : Bool) :
    ∃ result shown merged, (Operation.format.run path documents).result = .ok result ∧
      result.render ⟨false, false, verbose⟩ = .ok shown ∧
      readDocument shown.toList = .ok merged ∧
      merged.shapes = separate.flatMap Block.shapes := by
  have hunchanged : ∀ bundle ∈ bundles, (∀ c ∈ bundle.text.toList, isDropped c = false) →
      Printed.chars ⟨bundle.text, false, ""⟩ = bundle.text.toList :=
    forall_of_forall₂ hread.flip fun _ _ hdocument => chars_text_of_kept hdocument
  have htexts : ∀ bundle ∈ bundles,
      Printed.chars ⟨bundle.text, false, ""⟩ = bundle.text.toList :=
    fun bundle hmem => hunchanged bundle hmem (hkept bundle hmem)
  have hshown : List.Forall₂ (fun (document : Document) bundle =>
      SpellsNodes maxDepth ((Bundle.shown bundles.length bundle).flatMap Printed.chars)
        document.shapes) separate bundles :=
    forall₂_imp_of_forall hread.flip (fun bundle (hmem : bundle ∈ bundles) => hmem)
      fun document bundle hdocument hmem => spellsNodes_shown (hbreaks bundle hmem) hdocument
        (htexts bundle hmem) fun hmany => hlabels hmany bundle hmem
  have hnodes := SpellsNodes.flatMap hshown.flip
  rw [← List.flatMap_assoc] at hnodes
  -- What is printed ends in a brace and a line feed, and only the line feed is taken away.
  obtain ⟨front, hfront⟩ := exists_shown_concat hne bundles.length htexts
  have hclosed : front ++ ['\x7d', '\n'] = (front ++ ['\x7d']) ++ ['\n'] :=
    (List.append_assoc front ['\x7d'] ['\n']).symm
  rw [hfront, hclosed] at hnodes
  obtain ⟨merged, hmerged, hshapes⟩ := readDocument_unended hnodes
  refine ⟨_, print (bundles.flatMap (Bundle.shown bundles.length)), merged,
    run_of_loaded hloaded, ?_, ?_, hshapes⟩
  · exact render_format hnames verbose
  · rwa [print_closed hfront]

/-- Two documents, each of which is shown below a comment. -/
theorem Operation.format_readable_labelled :
    let address : SocketAddress := ⟨.v4 ⟨[1, 1, 1, 1], rfl⟩, 1⟩
    let service (name : String) : Config.Service :=
      ⟨name, ⟨[⟨address, none, false⟩]⟩, ⟨[⟨address, none, .http1⟩], none⟩⟩
    let bundles : List Bundle :=
      [⟨"a.kdl", [service "web"], ∅, ∅⟩, ⟨"b\t.kdl", [service "api"], ∅, ∅⟩]
    let path : Path := ⟨.relative, ["conf.d"], by decide⟩
    let text (name : String) : String := "services \x7b " ++ name ++ " \x7b
      listeners \x7b \"1.1.1.1:1\"; \x7d; connectors \x7b upstream \"1.1.1.1:1\"; \x7d; \x7d; \x7d"
    let documents := loadSources [⟨"a.kdl", text "web"⟩, ⟨"b\t.kdl", text "api"⟩]
    (loadBundles path documents).result = .ok bundles ∧
    ∃ separate result shown merged,
      List.Forall₂ (fun bundle document => readDocument bundle.text.toList = .ok document)
        bundles separate ∧
      (Operation.format.run path documents).result = .ok result ∧
      result.render ⟨false, false, false⟩ = .ok shown ∧
      readDocument shown.toList = .ok merged ∧
      merged.shapes = separate.flatMap Block.shapes := by
  intro address service bundles path text documents
  have hloaded : (loadBundles path documents).result = .ok bundles := by decide +kernel
  have haccepted : ∀ bundle ∈ bundles, (readDocument bundle.text.toList).isOk = true := by
    simp only [Bundle.toList_text]
    decide +kernel
  have hkept : ∀ bundle ∈ bundles, ∀ c ∈ bundle.text.toList, isDropped c = false := by
    have hnone : ∀ bundle ∈ bundles, (linesText 0 bundle.lines).any isDropped = false := by
      decide +kernel
    intro bundle hmem
    rw [Bundle.toList_text]
    exact fun c hc => Bool.eq_false_iff.mpr (List.any_eq_false.mp (hnone bundle hmem) c hc)
  have hbreaks : ∀ bundle ∈ bundles, ∀ c ∈ bundle.sourceName.toList, isNewline c = false := by
    have hnone : ∀ bundle ∈ bundles, bundle.sourceName.toList.any isNewline = false := by
      decide +kernel
    exact fun bundle hmem c hc =>
      Bool.eq_false_iff.mpr (List.any_eq_false.mp (hnone bundle hmem) c hc)
  obtain ⟨separate, hread⟩ :=
    exists_forall₂ fun bundle hmem => exists_of_isOk (haccepted bundle hmem)
  obtain ⟨result, shown, merged, hall⟩ := Operation.format_readable hloaded (by decide)
    (by decide) hbreaks hread hkept (by decide +kernel) false
  exact ⟨hloaded, separate, result, shown, merged, hread, hall⟩

theorem shapes_ne_of_printed {text text' : List Char} {document document' : Document}
    (hread : readDocument text = .ok document) (hread' : readDocument text' = .ok document')
    (hne : (readDocument text).toOption.map (fun found => printShapes found.shapes) ≠
      (readDocument text').toOption.map fun found => printShapes found.shapes) :
    document.shapes ≠ document'.shapes := by
  intro hsame
  rw [hread, hread'] at hne
  exact hne (congrArg (some ∘ printShapes) hsame)

/-- A bell in a value is lost: what is shown of the only document says something else. -/
theorem Operation.format_loses_bell :
    let text := "services \x7b web \x7b listeners \x7b \"1.1.1.1:1\"; \x7d;
      connectors \x7b upstream \"1.1.1.1:1\"; \x7d; \x7d; \x7d; definitions \x7b
      chain-filters c \x7b filter name=x.y k=\"a\x07b\"; \x7d; \x7d"
    let address : SocketAddress := ⟨.v4 ⟨[1, 1, 1, 1], rfl⟩, 1⟩
    let service : Config.Service :=
      ⟨"web", ⟨[⟨address, none, false⟩]⟩, ⟨[⟨address, none, .http1⟩], none⟩⟩
    let chain : Chain := ⟨[⟨⟨"x.y"⟩, ⟨[("k", "a\x07b")], by decide⟩⟩]⟩
    let bundle : Bundle := ⟨"a.kdl", [service], ⟨[("c", chain)], by decide⟩, ∅⟩
    let path : Path := ⟨.relative, ["a.kdl"], by decide⟩
    let documents := loadSources [⟨"a.kdl", text⟩]
    (loadBundles path documents).result = .ok [bundle] ∧
    ∃ result shown separate merged, readDocument bundle.text.toList = .ok separate ∧
      (Operation.format.run path documents).result = .ok result ∧
      result.render ⟨false, false, false⟩ = .ok shown ∧
      readDocument shown.toList = .ok merged ∧ merged.shapes ≠ separate.shapes := by
  intro text address service chain bundle path documents
  have hloaded : (loadBundles path documents).result = .ok [bundle] := by decide +kernel
  let shown := print ([bundle].flatMap (Bundle.shown 1))
  obtain ⟨separate, hseparate⟩ : ∃ separate, readDocument bundle.text.toList = .ok separate := by
    rw [Bundle.toList_text]
    exact exists_of_isOk (by decide +kernel)
  have hshown : shown.toList = (((linesText 0 bundle.lines).filter fun c =>
      !isDropped c).reverse.dropWhile (· = '\n')).reverse := by
    rw [toList_print, List.flatMap_singleton, Bundle.shown, if_neg (by decide), List.nil_append,
      List.flatMap_singleton, chars_text hseparate, Bundle.toList_text]
  obtain ⟨merged, hmerged⟩ : ∃ merged, readDocument shown.toList = .ok merged := by
    rw [hshown]
    exact exists_of_isOk (by decide +kernel)
  refine ⟨hloaded, _, shown, separate, merged, hseparate, run_of_loaded hloaded,
    render_format (by decide) false, hmerged, shapes_ne_of_printed hmerged hseparate ?_⟩
  rw [hshown, Bundle.toList_text]
  decide +kernel

end ReverseProxy
