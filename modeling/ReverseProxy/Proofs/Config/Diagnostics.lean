import ReverseProxy.Loading
import ReverseProxy.Proofs.Config.Faults
import ReverseProxy.Proofs.Kdl.Slices

/-!
# Where diagnostics point

A diagnostic of a text names that text and points into it. If the text cannot be read, the
diagnostic starts in the text or at its end. If its document gives no bundle, the diagnostic covers
the document or a part of it, and does not reach beyond the text (`Source.diagnostic_points`).
-/

namespace ReverseProxy

open Config Kdl Schema

namespace Kdl

/-- The spans in a node that is moved are the moved spans. -/
theorem Node.HasSpan.of_shift {node : Node} {distance : Nat} {span : Span}
    (hspan : (node.shift distance).HasSpan span) :
    ∃ origin, node.HasSpan origin ∧ span = origin.shift distance := by
  cases hspan with
  | whole => exact ⟨_, .whole, node.shift_span distance⟩
  | name =>
      refine ⟨_, .name, ?_⟩
      cases node
      rfl
  | entry hentry =>
      rw [Node.shift_entries] at hentry
      obtain ⟨entry, hfound, rfl⟩ := List.mem_map.mp hentry
      exact ⟨_, .entry hfound, rfl⟩
  | block hblock =>
      rw [Node.shift_children] at hblock
      obtain ⟨block, hfound, rfl⟩ := Option.map_eq_some_iff.mp hblock
      exact ⟨_, .block hfound, rfl⟩

/-- What is spelt by a piece of a text does not reach beyond the text. -/
theorem Occurs.span_finish_le {piece text : List Char} {offset : Nat} {span : Span}
    (hpiece : Occurs piece offset text) (hspan : span = ⟨0, piece.length⟩) :
    (span.shift offset).finish ≤ text.length := by
  cases hspan
  rw [Span.shift, Span.finish, Nat.zero_add]
  exact hpiece.finish_le

/-- No span in a node reaches behind the text of the node. -/
theorem IsNode.finish_le {read : BlockReader} {text : List Char} {node : Node} {span : Span}
    (hnode : IsNode read text node) (hspan : node.HasSpan span) : span.finish ≤ text.length := by
  cases hspan with
  | whole => rw [hnode.span_eq, Span.finish, Nat.zero_add]
  | name =>
      cases hnode
      simp only [Span.finish, List.length_append]
      omega
  | entry hentry =>
      obtain ⟨piece, origin, offset, hoccurs, horigin, rfl⟩ := hnode.entry_occurs hentry
      exact hoccurs.span_finish_le horigin.span_eq
  | block hblock =>
      obtain ⟨piece, origin, offset, hoccurs, horigin, rfl⟩ := hnode.block_occurs hblock
      exact hoccurs.span_finish_le horigin.span_eq

/-- No span of a document reaches beyond its text. -/
theorem readDocument_finish_le {text : List Char} {document : Document} {span : Span}
    (hread : readDocument text = .ok document) (hspan : document.HasSpan span) :
    span.finish ≤ text.length := by
  obtain ⟨isnodes, hwhole⟩ := readDocument_eq_ok.mp hread
  rcases hspan with rfl | ⟨node, ⟨top, htop, hheld⟩, hspan⟩
  · rw [hwhole, Span.finish, Nat.zero_add]
  · obtain ⟨piece, origin, offset, hoccurs, isnode, rfl⟩ := isnodes.held_occurs hheld htop
    obtain ⟨inner, hinner, rfl⟩ := hspan.of_shift
    have hpiece := isnode.finish_le hinner
    have htext := hoccurs.finish_le
    simp only [Span.finish, Span.shift] at hpiece ⊢
    omega

end Kdl

/-- A diagnostic comes from a failure at a place, and from no digit limit. -/
theorem mapError_eq_diagnostic {Problem α : Type} {outcome : Except (Failure Problem) α}
    {diagnostic : Problem → Span → Source → Diagnostic} {source : Source} {found : Diagnostic} :
    outcome.mapError (LoadFailure.of diagnostic source) = .error (.diagnostic found) ↔
      ∃ problem span, outcome = .error (.located problem span) ∧
        diagnostic problem span source = found := by
  rw [mapError_eq_error]
  constructor
  · rintro ⟨⟨problem, span⟩ | limit, hfailure, hfound⟩
    · cases hfound
      exact ⟨problem, span, hfailure, rfl⟩
    · cases hfound
  · rintro ⟨problem, span, hfailure, rfl⟩
    exact ⟨_, hfailure, rfl⟩

namespace Source

variable {source : Source} {diagnostic : Diagnostic}

/-- **Where diagnostics point.** If reading a text and taking a bundle from its document ends in a
diagnostic, the diagnostic is about that text and starts in it or at its end. If the text was read,
the diagnostic has the span of the whole document, or that of a node at any depth, of its name, of
one of its entries or of its block; then it also ends in the text. -/
theorem diagnostic_points
    (hfails : (do (source.report (Bundle.ofDocument source.name (← source.read))).result) =
      .error (.diagnostic diagnostic)) :
    diagnostic.source = source ∧ diagnostic.span.offset ≤ source.text.length ∧
      ∀ document, source.read = .ok document →
        document.HasSpan diagnostic.span ∧ diagnostic.span.finish ≤ source.text.length := by
  rcases bind_eq_error.mp hfails with hread | ⟨document, hread, hcheck⟩
  · obtain ⟨problem, span, hfailure, rfl⟩ := mapError_eq_diagnostic.mp hread
    have hstart : span.offset ≤ source.text.toList.length :=
      (readDocument_failsBy _).reason_of_eq _ hfailure
    refine ⟨rfl, hstart, ?_⟩
    intro document hdocument
    rw [hread] at hdocument
    cases hdocument
  · obtain ⟨problem, span, hfailure, rfl⟩ := mapError_eq_diagnostic.mp hcheck
    have hspan : document.HasSpan span :=
      (Bundle.ofDocument_failsBy source.name document).reason_of_eq _ hfailure
    have hfinish : span.finish ≤ source.text.toList.length :=
      readDocument_finish_le (mapError_eq_ok.mp hread) hspan
    refine ⟨rfl, Nat.le_trans (Nat.le_add_right ..) hfinish, ?_⟩
    intro other hother
    rw [hread] at hother
    cases hother
    exact ⟨hspan, hfinish⟩

/-- A service without a block, in a document that can be read. -/
theorem diagnostic_points_service :
    let source : Source := ⟨"web.kdl", "services \x7b\n  web\n\x7d\n"⟩
    let diagnostic := Problem.enterMissing.diagnostic ⟨13, 3⟩ source
    (do (source.report (Bundle.ofDocument source.name (← source.read))).result) =
        .error (.diagnostic diagnostic) ∧
      diagnostic.source = source ∧ diagnostic.span.offset ≤ source.text.length ∧
      ∀ document, source.read = .ok document →
        document.HasSpan diagnostic.span ∧ diagnostic.span.finish ≤ source.text.length := by
  intro source diagnostic
  have hread : source.read = .ok ⟨[⟨"services", ⟨0, 8⟩, ⟨0, 18⟩, [],
      some ⟨[⟨"web", ⟨13, 3⟩, ⟨13, 3⟩, [], none⟩], ⟨9, 9⟩⟩⟩], ⟨0, 19⟩⟩ := by
    unfold source
    rfl
  have hfails : (do (source.report (Bundle.ofDocument source.name (← source.read))).result) =
      .error (.diagnostic diagnostic) := by
    rw [hread]
    rfl
  exact ⟨hfails, diagnostic_points hfails⟩

end Source

end ReverseProxy
