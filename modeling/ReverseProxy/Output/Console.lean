import ReverseProxy.Text.Columns
import ReverseProxy.Text.Digit
import ReverseProxy.Text.Split

/-!
# Text for a terminal

Text is printed in lines. Control characters that would move the cursor are dropped and a tab leads
to the next column that is a multiple of eight. A line is then broken between words where it would
pass the width; a word that is wider than a line is cut. Text printed as it is keeps its lines.
-/

namespace ReverseProxy.Output

open Text

def width : Nat := 120

def tabSize : Nat := 8

/-- Bell, backspace, vertical tab, form feed and carriage return. -/
def isDropped (c : Char) : Bool :=
  ['\x07', '\x08', '\x0b', '\x0c', '\x0d'].contains c

/-- The parts between the tabs of a line, with the blanks that each tab stands for; the first part
starts at a column. -/
def fillTabs (column : Nat) : List (List Char) → List Char
  | [] => []
  | [part] => part
  | part :: parts =>
      let piece := part ++ [' ']
      let reached := column + columns piece
      let missing := (tabSize - reached % tabSize) % tabSize
      piece ++ List.replicate missing ' ' ++ fillTabs (reached + missing) parts

def expandTabs (line : List Char) : List Char := fillTabs 0 (splitAll '\t' line)

theorem expandTabs_of_not_mem {line : List Char} (h : '\t' ∉ line) : expandTabs line = line := by
  rw [expandTabs, splitAll_of_not_mem h, fillTabs]

def words : (count : Nat) → List Char → List (List Char)
  | 0, _ => []
  | count + 1, text =>
      let lead := text.takeWhile isBlank
      let rest := text.dropWhile isBlank
      if rest = [] then []
      else
        let body := rest.takeWhile fun c => !isBlank c
        let rest := rest.dropWhile fun c => !isBlank c
        let tail := rest.takeWhile isBlank
        (lead ++ body ++ tail) :: words count (rest.dropWhile isBlank)

def trimEnd (text : List Char) : List Char := (text.reverse.dropWhile isBlank).reverse

/-- Puts words into lines, the one under way given in full and with the column it has reached. A
word fits if it does so without the blanks behind it. -/
def fill (line : List Char) (column : Nat) : List (List Char) → List (List Char)
  | [] => [line]
  | word :: rest =>
      let size := columns (trimEnd word)
      if column + size ≤ width then fill (line ++ word) (column + columns word) rest
      else
        let started := if line = [] then [] else [line]
        if size ≤ width then started ++ fill word (columns word) rest
        else
          let cut := pieces width word
          let last := cut.getLast?.getD []
          started ++ cut.dropLast ++ fill last (columns last) rest

/-- A line without the blanks that stand beyond the width at its end, counted in characters, and
without what is still beyond it, counted in columns. -/
def cropEnd (line : List Char) : List Char :=
  let blanks := line.length - (trimEnd line).length
  takeColumns width (line.take (line.length - min blanks (line.length - width)))

def wrapLine (line : List Char) : List (List Char) :=
  match words line.length line with
  | [] => [cropEnd line]
  | words => (fill [] 0 words).map cropEnd

/-- Text with what is printed behind it; `wrapped` tells whether its lines may be broken. -/
structure Printed where
  text : String
  wrapped : Bool
  ending : String

def line (text : String) : Printed := ⟨text, true, "\n"⟩

def verbatim (text : String) : Printed := ⟨text, false, "\n"⟩

def Printed.chars (printed : Printed) : List Char :=
  let lines := (splitAll '\n' (printed.text.toList.filter fun c => !isDropped c)).map expandTabs
  let lines := if printed.wrapped then lines.flatMap wrapLine else lines
  join '\n' lines ++ printed.ending.toList

def print (printed : List Printed) : String :=
  String.ofList (((printed.flatMap Printed.chars).reverse.dropWhile (· = '\n')).reverse)

end ReverseProxy.Output
