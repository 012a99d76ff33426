/-!
# Control sequences

A control sequence tells a terminal to change colours or to move: an escape character and an opening
bracket, then parameters, then intermediate characters, and one final character. Output that is not
for a terminal is written without them.
-/

namespace ReverseProxy.Text

def escape : Char := '\x1b'

def isParameter (c : Char) : Bool := '0' ≤ c && c ≤ '?'

def isIntermediate (c : Char) : Bool := ' ' ≤ c && c ≤ '/'

def isFinal (c : Char) : Bool := '@' ≤ c && c ≤ '~'

/-- The length of the control sequence at the start of a text, less its escape character. -/
def sequenceTail? (text : List Char) : Option Nat :=
  match text with
  | c :: '[' :: inner =>
      let parameters := inner.takeWhile isParameter
      let rest := inner.dropWhile isParameter
      let intermediates := rest.takeWhile isIntermediate
      match rest.dropWhile isIntermediate with
      | final :: _ =>
          if c = escape ∧ isFinal final then some (parameters.length + intermediates.length + 2)
          else none
      | [] => none
  | _ => none

def withoutSequencesAfter (skipped : Nat) : List Char → List Char
  | [] => []
  | c :: rest =>
      match skipped with
      | left + 1 => withoutSequencesAfter left rest
      | 0 =>
          match sequenceTail? (c :: rest) with
          | some tail => withoutSequencesAfter tail rest
          | none => c :: withoutSequencesAfter 0 rest

/-- A text without its control sequences; one that is not complete stays. -/
def withoutSequences (text : List Char) : List Char := withoutSequencesAfter 0 text

def plainText (text : String) : String := String.ofList (withoutSequences text.toList)

end ReverseProxy.Text
